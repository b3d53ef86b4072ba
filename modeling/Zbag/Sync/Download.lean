import Mathlib.Algebra.Ring.Nat
import Mathlib.Tactic.Common

/-!
# Sync — downloading a range with retries

`download_blocks_with_retry` asks the server for a range of blocks until a stream brings some, or
the retries are used up. What the server does with each call of `get_block_range` is a list of
responses, of which the function reads a part. A stream that fails while retries are left is left
like one that ended, so that its blocks are returned, and a refused connection is counted twice.
-/

namespace ZbagSync

variable {β ε : Type}

/-! ## The function -/

/-- The connection is refused, or blocks come until the stream ends or fails. -/
inductive RangeResponse (β ε : Type)
  | refused (error : ε)
  | stream (blocks : List β) (error : Option ε)
  deriving DecidableEq, Repr

inductive DownloadTurn (β ε : Type)
  | returns (result : Except ε (List β))
  | retries (attempt : ℕ)
  | overflows
  deriving Repr

/-- It is a `u32`. -/
def nextAttempt (attempt : ℕ) : DownloadTurn β ε :=
  if attempt + 1 < 2 ^ 32 then .retries (attempt + 1) else .overflows

def streamRead (maxRetries attempt : ℕ) (blocks : List β) : DownloadTurn β ε :=
  if blocks ≠ [] ∨ maxRetries ≤ attempt then .returns (.ok blocks) else nextAttempt attempt

def downloadTurn (maxRetries attempt : ℕ) : RangeResponse β ε → DownloadTurn β ε
  | .refused e =>
    -- the counter is raised here and once more at the end of the turn
    if attempt < maxRetries then nextAttempt (attempt + 1) else .returns (.error e)
  | .stream blocks none => streamRead maxRetries attempt blocks
  | .stream blocks (some e) =>
    -- the inner loop is left with the blocks that were read
    if attempt < maxRetries then streamRead maxRetries attempt blocks else .returns (.error e)

/-- No result while it waits for a response, and none when the counter overflows. -/
def downloadLoop (maxRetries : ℕ) :
    ℕ → List (RangeResponse β ε) → Option (Except ε (List β) × List (RangeResponse β ε))
  | _, [] => none
  | attempt, r :: server =>
    match downloadTurn maxRetries attempt r with
    | .returns result => some (result, server)
    | .retries attempt => downloadLoop maxRetries attempt server
    | .overflows => none

def downloadBlocksWithRetry (start endExclusive maxRetries : ℕ)
    (server : List (RangeResponse β ε)) :
    Option (Except ε (List β) × List (RangeResponse β ε)) :=
  if endExclusive ≤ start then some (.ok [], server) else downloadLoop maxRetries 0 server

/-! ## What a turn does -/

namespace RangeResponse

def failed : RangeResponse β ε → Bool
  | .refused _ | .stream _ (some _) => true
  | .stream _ none => false

def barren : RangeResponse β ε → Bool
  | .refused _ | .stream [] _ => true
  | .stream (_ :: _) _ => false

/-- The stream fails after a block. -/
def cutShort : RangeResponse β ε → Bool
  | .stream (_ :: _) (some _) => true
  | .refused _ | .stream _ none | .stream [] (some _) => false

def counts : RangeResponse β ε → ℕ
  | .refused _ => 2
  | .stream .. => 1

@[simp] theorem counts_refused (e : ε) : (refused e : RangeResponse β ε).counts = 2 := rfl

@[simp] theorem counts_stream (blocks : List β) (error : Option ε) :
    (stream blocks error).counts = 1 := rfl

theorem counts_pos (r : RangeResponse β ε) : 0 < r.counts := by
  cases r <;> simp

theorem counts_le (r : RangeResponse β ε) : r.counts ≤ 2 := by
  cases r <;> simp

end RangeResponse

/-- The counter after some retries. -/
def counter (made : List (RangeResponse β ε)) : ℕ := (made.map RangeResponse.counts).sum

@[simp] theorem counter_nil : counter ([] : List (RangeResponse β ε)) = 0 := rfl

@[simp] theorem counter_cons (r : RangeResponse β ε) (made : List (RangeResponse β ε)) :
    counter (r :: made) = r.counts + counter made :=
  List.sum_cons

section turn

variable {maxRetries attempt : ℕ} {r : RangeResponse β ε}

theorem nextAttempt_eq_retries {m : ℕ} :
    (nextAttempt attempt : DownloadTurn β ε) = .retries m ↔ m = attempt + 1 ∧ m < 2 ^ 32 := by
  unfold nextAttempt
  split_ifs with h
  · rw [DownloadTurn.retries.injEq]
    constructor
    · rintro rfl
      exact ⟨rfl, h⟩
    · exact fun hm => hm.1.symm
  · constructor
    · exact nofun
    · rintro ⟨rfl, hm⟩
      exact absurd hm h

theorem nextAttempt_ne_returns {result : Except ε (List β)} :
    nextAttempt attempt ≠ .returns result := by
  unfold nextAttempt
  split_ifs <;> exact nofun

theorem streamRead_eq_returns {blocks : List β} {result : Except ε (List β)} :
    streamRead maxRetries attempt blocks = .returns result ↔
      result = .ok blocks ∧ (blocks ≠ [] ∨ maxRetries ≤ attempt) := by
  unfold streamRead
  split_ifs with h
  · rw [DownloadTurn.returns.injEq, and_iff_left h, eq_comm]
  · exact iff_of_false nextAttempt_ne_returns fun hr => h hr.2

theorem streamRead_eq_retries {blocks : List β} {m : ℕ} :
    (streamRead maxRetries attempt blocks : DownloadTurn β ε) = .retries m ↔
      blocks = [] ∧ attempt < maxRetries ∧ m = attempt + 1 ∧ m < 2 ^ 32 := by
  unfold streamRead
  split_ifs with h
  · refine iff_of_false nofun fun hr => ?_
    exact h.elim (fun hb => hb hr.1) (fun ha => absurd hr.2.1 (by omega))
  · rw [nextAttempt_eq_retries]
    simp only [not_or, not_not, Nat.not_le] at h
    simp [h]

/-- **A turn is repeated** exactly when no block came and retries are left. -/
theorem downloadTurn_eq_retries {m : ℕ} : downloadTurn maxRetries attempt r = .retries m ↔
    r.barren = true ∧ attempt < maxRetries ∧ m = attempt + r.counts ∧ m < 2 ^ 32 := by
  rcases r with e | ⟨_ | ⟨b, blocks⟩, _ | e⟩ <;>
    simp only [downloadTurn, RangeResponse.barren, RangeResponse.counts]
  · split_ifs with h
    · simp [nextAttempt_eq_retries, h, Nat.add_assoc]
    · simp [h]
  all_goals
    try split_ifs
    all_goals simp [streamRead_eq_retries]
    all_goals omega

/-- Of a whole stream, or of one cut short while retries were left. -/
theorem downloadTurn_eq_ok {blocks : List β} :
    downloadTurn maxRetries attempt r = .returns (.ok blocks) ↔
      r = .stream blocks none ∧ (blocks ≠ [] ∨ maxRetries ≤ attempt) ∨
        (∃ e, r = .stream blocks (some e)) ∧ r.cutShort = true ∧ attempt < maxRetries := by
  rcases r with e | ⟨_ | ⟨b, bs⟩, _ | e⟩ <;>
    simp only [downloadTurn, RangeResponse.cutShort]
  all_goals
    try split_ifs
    all_goals simp_all [streamRead_eq_returns, nextAttempt_ne_returns]
  all_goals grind

theorem downloadTurn_eq_error {e : ε} :
    downloadTurn maxRetries attempt r = .returns (.error e) ↔
      maxRetries ≤ attempt ∧ (r = .refused e ∨ ∃ blocks, r = .stream blocks (some e)) := by
  rcases r with e' | ⟨blocks, _ | e'⟩ <;> simp only [downloadTurn]
  all_goals
    try split_ifs with h
    all_goals simp [streamRead_eq_returns, nextAttempt_ne_returns]
    all_goals omega

theorem downloadTurn_ne_overflows (hmax : maxRetries + 1 < 2 ^ 32) :
    downloadTurn maxRetries attempt r ≠ .overflows := by
  rcases r with e | ⟨blocks, _ | e⟩ <;> simp only [downloadTurn, streamRead, nextAttempt]
  all_goals
    split_ifs
    all_goals first | omega | exact nofun

end turn

/-! ## What the loop reads -/

/-- Each brings no block and comes while retries are left. -/
def GoesOn (maxRetries : ℕ) : ℕ → List (RangeResponse β ε) → Prop
  | _, [] => True
  | attempt, r :: made =>
    r.barren = true ∧ attempt < maxRetries ∧ GoesOn maxRetries (attempt + r.counts) made

variable {maxRetries attempt : ℕ}

theorem GoesOn.barren {made : List (RangeResponse β ε)} (h : GoesOn maxRetries attempt made) :
    ∀ r ∈ made, r.barren = true := by
  induction made generalizing attempt with
  | nil => exact List.forall_mem_nil _
  | cons r made ih => exact List.forall_mem_cons.mpr ⟨h.1, ih h.2.2⟩

/-- **The loop ends with the first response** that brings blocks or comes when no retry is left. -/
theorem downloadLoop_eq_some {server left : List (RangeResponse β ε)} {result : Except ε (List β)}
    (hattempt : attempt < 2 ^ 32) :
    downloadLoop maxRetries attempt server = some (result, left) ↔
      ∃ made r, server = made ++ r :: left ∧ GoesOn maxRetries attempt made ∧
        attempt + counter made < 2 ^ 32 ∧
        downloadTurn maxRetries (attempt + counter made) r = .returns result := by
  induction server generalizing attempt with
  | nil => simp [downloadLoop]
  | cons r server ih =>
    rw [downloadLoop]
    constructor
    · intro h
      cases hturn : downloadTurn maxRetries attempt r with
      | returns result' =>
        simp only [hturn, Option.some.injEq, Prod.mk.injEq] at h
        obtain ⟨rfl, rfl⟩ := h
        exact ⟨[], r, rfl, trivial, hattempt, hturn⟩
      | retries m =>
        simp only [hturn] at h
        obtain ⟨hbarren, hlt, rfl, hm⟩ := downloadTurn_eq_retries.mp hturn
        obtain ⟨made, r', rfl, hgoes, hbound, hlast⟩ := (ih hm).mp h
        refine ⟨r :: made, r', rfl, ⟨hbarren, hlt, hgoes⟩, ?_⟩
        rw [counter_cons, ← Nat.add_assoc]
        exact ⟨hbound, hlast⟩
      | overflows => simp [hturn] at h
    · rintro ⟨_ | ⟨r', made⟩, last, hserver, hgoes, hbound, hlast⟩
      · obtain ⟨rfl, rfl⟩ := List.cons.inj hserver
        rw [counter_nil, Nat.add_zero] at hlast
        rw [hlast]
      · obtain ⟨rfl, rfl⟩ := List.cons.inj hserver
        obtain ⟨hbarren, hlt, hgoes⟩ := hgoes
        rw [counter_cons, ← Nat.add_assoc] at hbound hlast
        have hm : attempt + r.counts < 2 ^ 32 := by omega
        rw [downloadTurn_eq_retries.mpr ⟨hbarren, hlt, rfl, hm⟩]
        exact (ih hm).mpr ⟨made, last, rfl, hgoes, hbound, hlast⟩

/-- **The function returns** after at most one response more than there are retries. -/
theorem downloadLoop_returns {server : List (RangeResponse β ε)} (hmax : maxRetries + 1 < 2 ^ 32)
    (hne : server ≠ []) (hserver : maxRetries < attempt + server.length) :
    (downloadLoop maxRetries attempt server).isSome = true := by
  induction server generalizing attempt with
  | nil => exact absurd rfl hne
  | cons r server ih =>
    rw [downloadLoop]
    cases hturn : downloadTurn maxRetries attempt r with
    | returns result => rfl
    | retries m =>
      obtain ⟨-, hlt, rfl, -⟩ := downloadTurn_eq_retries.mp hturn
      have hpos := r.counts_pos
      rw [List.length_cons] at hserver
      have hlength : 0 < server.length := by omega
      exact ih (List.ne_nil_of_length_pos hlength) (by omega)
    | overflows => exact absurd hturn (downloadTurn_ne_overflows hmax)

theorem downloadLoop_returns_refused :
    (downloadLoop 1 0 (List.replicate 2 (.refused () : RangeResponse ℕ Unit))).isSome = true :=
  downloadLoop_returns (by decide) (by decide) (by decide)

/-! ## What is returned -/

/-- One of the streams that ended, or an error after more failures than retries. -/
def HonestResult (maxRetries : ℕ) (made : List (RangeResponse β ε)) : Except ε (List β) → Prop
  | .ok blocks => .stream blocks none ∈ made
  | .error _ => maxRetries + 1 ≤ made.countP RangeResponse.failed

def DownloadHonest (start endExclusive maxRetries : ℕ) (server : List (RangeResponse β ε)) : Prop :=
  ∀ result left,
    downloadBlocksWithRetry start endExclusive maxRetries server = some (result, left) →
      ∃ made, server = made ++ left ∧ HonestResult maxRetries made result

/-- Streams fail before their first block; only with one retry left is a connection refused. -/
def CountedOnce (maxRetries : ℕ) : ℕ → List (RangeResponse β ε) → Prop
  | _, [] => True
  | attempt, .stream _ (some _) :: made => CountedOnce maxRetries (attempt + 1) made
  | attempt, .refused _ :: made =>
    attempt + 1 = maxRetries ∧ CountedOnce maxRetries (attempt + 2) made
  | _, .stream _ none :: _ => False

/-- No stream is cut short while retries are left, and no failure was counted twice. -/
def ServerSteady (maxRetries : ℕ) (server : List (RangeResponse β ε)) : Prop :=
  ∀ (made : List (RangeResponse β ε)) (r : RangeResponse β ε) (left : List (RangeResponse β ε)),
    server = made ++ r :: left → GoesOn maxRetries 0 made → counter made < 2 ^ 32 →
    if counter made < maxRetries then r.cutShort = false
    else r.failed = true → CountedOnce maxRetries 0 made

section counting

variable {maxRetries attempt : ℕ} {made : List (RangeResponse β ε)}

theorem GoesOn.countP_failed_le (h : GoesOn maxRetries attempt made)
    (hattempt : attempt ≤ maxRetries + 1) :
    made = [] ∨ attempt + made.countP RangeResponse.failed ≤ maxRetries := by
  induction made generalizing attempt with
  | nil => exact .inl rfl
  | cons r made ih =>
    obtain ⟨-, hlt, hgoes⟩ := h
    have hcount : (r :: made).countP RangeResponse.failed ≤
        made.countP RangeResponse.failed + 1 := by
      rw [List.countP_cons]
      split_ifs <;> omega
    have hpos := r.counts_pos
    have hle := r.counts_le
    right
    obtain rfl | hmade := ih hgoes (by omega)
    · rw [List.countP_nil] at hcount
      omega
    · omega

/-- **The counter runs out after as many failures as there are retries** exactly when each attempt
was counted once. -/
theorem le_countP_failed_iff (h : GoesOn maxRetries attempt made)
    (hspent : maxRetries ≤ attempt + counter made) :
    maxRetries ≤ attempt + made.countP RangeResponse.failed ↔
      CountedOnce maxRetries attempt made := by
  induction made generalizing attempt with
  | nil => exact iff_of_true hspent trivial
  | cons r made ih =>
    obtain ⟨-, hlt, hgoes⟩ := h
    rw [counter_cons, ← Nat.add_assoc] at hspent
    match r with
    | .stream _ (some _) =>
      rw [RangeResponse.counts_stream] at hgoes hspent
      rw [CountedOnce, ← ih hgoes hspent, List.countP_cons_of_pos rfl]
      omega
    | .stream _ none =>
      -- an empty stream that ended takes a retry and is no failure
      rw [RangeResponse.counts_stream] at hgoes
      rw [CountedOnce, List.countP_cons_of_neg (by simp [RangeResponse.failed])]
      refine iff_of_false (fun hcount => ?_) id
      obtain rfl | hrest := hgoes.countP_failed_le (by omega)
      · rw [List.countP_nil] at hcount
        omega
      · omega
    | .refused _ =>
      -- two retries are taken by one failure, unless the last one is taken
      rw [RangeResponse.counts_refused] at hgoes hspent
      rw [CountedOnce, ← ih hgoes hspent, List.countP_cons_of_pos rfl]
      obtain rfl | hrest := hgoes.countP_failed_le (by omega)
      · rw [List.countP_nil]
        omega
      · omega

end counting

theorem endsHonest_iff {made : List (RangeResponse β ε)} {r : RangeResponse β ε}
    (h : GoesOn maxRetries 0 made) :
    (∀ result, downloadTurn maxRetries (counter made) r = .returns result →
        HonestResult maxRetries (made ++ [r]) result) ↔
      if counter made < maxRetries then r.cutShort = false
      else r.failed = true → CountedOnce maxRetries 0 made := by
  split_ifs with hleft
  · constructor
    · intro hends
      match r with
      | .refused _ | .stream [] none | .stream [] (some _) | .stream (_ :: _) none => rfl
      | .stream (b :: blocks) (some e) =>
        -- the blocks are returned, and no earlier stream had any
        have hmem := hends _ (downloadTurn_eq_ok.mpr (.inr ⟨⟨e, rfl⟩, rfl, hleft⟩))
        obtain hmem | hmem := List.mem_append.mp hmem
        · cases h.barren _ hmem
        · cases List.mem_singleton.mp hmem
    · intro hwhole result hturn
      match result with
      | .ok blocks =>
        obtain ⟨rfl, -⟩ | ⟨-, hcut, -⟩ := downloadTurn_eq_ok.mp hturn
        · exact List.mem_append_right _ List.mem_cons_self
        · rw [hwhole] at hcut
          cases hcut
      | .error e => exact absurd (downloadTurn_eq_error.mp hturn).1 (Nat.not_le.mpr hleft)
  · have hspent : maxRetries ≤ 0 + counter made := by omega
    rw [← le_countP_failed_iff h hspent]
    constructor
    · intro hends hfailed
      have hturn : ∃ e, downloadTurn maxRetries (counter made) r = .returns (.error e) := by
        match r with
        | .refused e => exact ⟨e, downloadTurn_eq_error.mpr ⟨by omega, .inl rfl⟩⟩
        | .stream blocks (some e) =>
          exact ⟨e, downloadTurn_eq_error.mpr ⟨by omega, .inr ⟨blocks, rfl⟩⟩⟩
        | .stream _ none => cases hfailed
      obtain ⟨e, hturn⟩ := hturn
      have hcount := hends _ hturn
      rw [HonestResult, List.countP_append, List.countP_singleton, if_pos hfailed] at hcount
      omega
    · intro hcount result hturn
      match result with
      | .ok blocks =>
        obtain ⟨rfl, -⟩ | ⟨-, -, hlt⟩ := downloadTurn_eq_ok.mp hturn
        · exact List.mem_append_right _ List.mem_cons_self
        · exact absurd hlt hleft
      | .error e =>
        have hfailed : r.failed = true := by
          obtain ⟨-, rfl | ⟨blocks, rfl⟩⟩ := downloadTurn_eq_error.mp hturn <;> rfl
        have hmade := hcount hfailed
        rw [HonestResult, List.countP_append, List.countP_singleton, if_pos hfailed]
        omega

/-- **What the function returns is honest** exactly if the range is not empty and the server is
steady. -/
theorem download_honest_iff (start endExclusive maxRetries : ℕ)
    (server : List (RangeResponse β ε)) :
    DownloadHonest start endExclusive maxRetries server ↔
      start < endExclusive ∧ ServerSteady maxRetries server := by
  constructor
  · intro h
    have hrange : start < endExclusive := by
      by_contra hempty
      obtain ⟨made, hmade, hmem⟩ := h (.ok []) server (if_pos (Nat.not_lt.mp hempty))
      have hnil : made = [] := List.append_left_eq_self.mp hmade.symm
      subst hnil
      exact List.not_mem_nil hmem
    refine ⟨hrange, fun made r left hserver hgoes hbound => (endsHonest_iff hgoes).mp ?_⟩
    intro result hturn
    have hloop : downloadLoop maxRetries 0 server = some (result, left) :=
      (downloadLoop_eq_some (by decide)).mpr
        ⟨made, r, hserver, hgoes, by rwa [Nat.zero_add], by rwa [Nat.zero_add]⟩
    obtain ⟨made', hmade', hresult⟩ :=
      h result left ((if_neg (Nat.not_le.mpr hrange)).trans hloop)
    rw [hserver, List.append_cons] at hmade'
    rwa [← List.append_cancel_right hmade'] at hresult
  · rintro ⟨hrange, hsteady⟩ result left hreturn
    have hloop := (if_neg (Nat.not_le.mpr hrange)).symm.trans hreturn
    obtain ⟨made, r, hserver, hgoes, hbound, hturn⟩ := (downloadLoop_eq_some (by decide)).mp hloop
    rw [Nat.zero_add] at hbound hturn
    refine ⟨made ++ [r], ?_, ?_⟩
    · rw [hserver, List.append_cons]
    · exact (endsHonest_iff hgoes).mpr (hsteady made r left hserver hgoes hbound) result hturn

theorem download_cut_short : downloadBlocksWithRetry 100 350 5 [.stream [100] (some "reset")] =
    some (.ok [100], []) ∧ ¬ DownloadHonest 100 350 5 [.stream [100] (some "reset")] := by
  refine ⟨rfl, fun h => ?_⟩
  obtain ⟨made, hmade, hmem⟩ := h (.ok [100]) [] rfl
  rw [List.append_nil] at hmade
  subst hmade
  cases List.mem_singleton.mp hmem

end ZbagSync
