import Zbag.Db.Servers

/-!
# The app database — the server after a failover

A broadcast that fails on one URL goes on with another server of the network. The server to leave
is a row of the table, and only this row is left out when the next one is chosen: a second row with
the URL that has failed is as good as any other.
-/

namespace ZbagDb

open Transition

variable {ρ : Type}

/-! ## The servers to choose from -/

/-- In the order of `list_servers`. -/
def failoverServers (env : FailoverEnv) (rows : Table ServerRow.id) : List ServerRow :=
  (rows.rows.mergeSort serverLe).filter fun s => s.network = env.network && env.validUrl s.grpcUrl

/-- The failing URL answers, and a second row with it comes before every other that answers. -/
def RepeatsFailing (env : FailoverEnv) (rows : Table ServerRow.id) : Prop :=
  env.probe env.currentGrpcUrl = true ∧
  ∃ (before : List ServerRow) (again : ServerRow) (after : List ServerRow),
    failoverServers env rows = before ++ again :: after ∧
    again.grpcUrl = env.currentGrpcUrl ∧ (∃ s ∈ before, s.grpcUrl = env.currentGrpcUrl) ∧
    ∀ s ∈ before, s.grpcUrl ≠ env.currentGrpcUrl → env.probe s.grpcUrl = false

variable {env : FailoverEnv} {rows : Table ServerRow.id}

theorem mem_failoverServers {s : ServerRow} : s ∈ failoverServers env rows ↔
    s ∈ rows ∧ s.network = env.network ∧ env.validUrl s.grpcUrl = true := by
  unfold failoverServers
  rw [List.mem_filter, List.mem_mergeSort, Bool.and_eq_true, decide_eq_true_eq]
  rfl

theorem nodup_failoverServers (env : FailoverEnv) (rows : Table ServerRow.id) :
    ((failoverServers env rows).map ServerRow.id).Nodup := by
  have hsorted : ((rows.rows.mergeSort serverLe).map ServerRow.id).Nodup :=
    ((List.mergeSort_perm _ _).map _).nodup_iff.mpr rows.nodup
  exact hsorted.sublist (List.filter_sublist.map _)

def failoverFrom (env : FailoverEnv) (servers : List ServerRow) : Option ServerRow :=
  servers.find? (·.grpcUrl = env.currentGrpcUrl) <|> servers.find? (·.isDefault)

def failoverTo (env : FailoverEnv) (servers : List ServerRow) (fromServer : ServerRow) :
    Option ServerRow :=
  servers.find? fun s => s.id ≠ fromServer.id && env.probe s.grpcUrl

variable {fromServer candidate : ServerRow} {α : Type} {l : List α} {x y : α}

theorem mem_of_failoverTo
    (h : failoverTo env (failoverServers env rows) fromServer = some candidate) :
    candidate ∈ rows ∧ candidate.network = env.network ∧ env.validUrl candidate.grpcUrl = true ∧
      env.probe candidate.grpcUrl = true := by
  obtain ⟨hmem, hnetwork, hvalid⟩ := mem_failoverServers.mp (List.mem_of_find?_eq_some h)
  have hprobe := List.find?_some h
  rw [Bool.and_eq_true] at hprobe
  exact ⟨hmem, hnetwork, hvalid, hprobe.2⟩

def afterFailover (env : FailoverEnv) (rows : Table ServerRow.id) (candidate : ServerRow) :
    Table ServerRow.id :=
  let moved := moveDefault rows candidate.network candidate.id
  if env.successStored then updateLastSuccessAt candidate.id env.now moved else moved

theorem setDefaultServer_of_mem {d : Database ρ} (hrows : d.servers = some rows)
    {server : ServerRow} (hserver : server ∈ rows) (commits : Bool) :
    setDefaultServer commits server.id d =
      if commits then
        (.ok (), { d with servers := some (moveDefault rows server.network server.id) })
      else (.error .io, d) := by
  unfold setDefaultServer
  rw [hrows]
  dsimp only
  rw [Table.mem_find?.mpr ⟨hserver, rfl⟩]

def failoverChoice (env : FailoverEnv) (rows : Table ServerRow.id) : Option ServerRow :=
  let servers := failoverServers env rows
  if servers.length < 2 then none else (failoverFrom env servers).bind (failoverTo env servers)

theorem failoverChoice_eq_some (h : failoverChoice env rows = some candidate) :
    ∃ fromServer,
      failoverFrom env (failoverServers env rows) = some fromServer ∧
      failoverTo env (failoverServers env rows) fromServer = some candidate := by
  unfold failoverChoice at h
  dsimp only at h
  split_ifs at h
  exact Option.bind_eq_some_iff.mp h

theorem not_length_lt_two (hx : x ∈ l) (hy : y ∈ l) (h : x ≠ y) : ¬ l.length < 2 := by
  intro hlength
  match l, hlength with
  | [], _ => cases hx
  | [z], _ =>
    rw [List.mem_singleton] at hx hy
    exact h (hx.trans hy.symm)

theorem exists_failoverChoice {a : ServerRow} (ha : a ∈ failoverServers env rows)
    (hurl : a.grpcUrl = env.currentGrpcUrl)
    (hnext : ∀ s ∈ failoverServers env rows, s.grpcUrl = env.currentGrpcUrl →
      ∃ b ∈ failoverServers env rows, b.id ≠ s.id ∧ env.probe b.grpcUrl = true) :
    ∃ candidate, failoverChoice env rows = some candidate := by
  obtain ⟨first, hfirst⟩ : ∃ first, (failoverServers env rows).find?
      (·.grpcUrl = env.currentGrpcUrl) = some first :=
    Option.isSome_iff_exists.mp (List.find?_isSome.mpr ⟨a, ha, decide_eq_true hurl⟩)
  have hmem := List.mem_of_find?_eq_some hfirst
  obtain ⟨b, hb, hid, hprobe⟩ := hnext first hmem (by simpa using List.find?_some hfirst)
  have hfrom : failoverFrom env (failoverServers env rows) = some first := by
    rw [failoverFrom, hfirst]
    rfl
  have hto : ((failoverTo env (failoverServers env rows)) first).isSome := by
    refine List.find?_isSome.mpr ⟨b, hb, ?_⟩
    rw [decide_eq_true hid, hprobe]
    rfl
  unfold failoverChoice
  rw [if_neg (not_length_lt_two hb hmem fun h => hid (congrArg ServerRow.id h)), hfrom]
  exact Option.isSome_iff_exists.mp hto

/-- **What a failover does**: it moves the default to the server that it chooses. -/
theorem tryFailoverServer_eq (env : FailoverEnv) {d : Database ρ} (hrows : d.servers = some rows) :
    tryFailoverServer env d =
      match failoverChoice env rows with
      | none => (.ok none, d)
      | some candidate =>
        if env.commits then
          (.ok (some candidate.grpcUrl),
            { d with servers := some (afterFailover env rows candidate) })
        else (.error .io, d) := by
  unfold tryFailoverServer listServers failoverChoice
  rw [hrows]
  dsimp only
  rw [← failoverServers]
  by_cases hlength : (failoverServers env rows).length < 2
  · rw [if_pos hlength, if_pos hlength]
  rw [if_neg hlength, if_neg hlength, ← failoverFrom]
  cases hfrom : failoverFrom env (failoverServers env rows) with
  | none => rfl
  | some fromServer =>
    dsimp only
    rw [← failoverTo, Option.bind_some]
    cases hto : failoverTo env (failoverServers env rows) fromServer with
    | none => rfl
    | some candidate =>
      dsimp only
      rw [setDefaultServer_of_mem hrows (mem_of_failoverTo hto).1]
      unfold afterFailover
      cases env.commits with
      | false => rfl
      | true =>
        cases env.successStored with
        | false | true => rfl

/-! ## The server that is returned -/

theorem isDefault_afterFailover (env : FailoverEnv) (hcandidate : candidate ∈ rows) :
    ∃ r, r.id = candidate.id ∧ r.grpcUrl = candidate.grpcUrl ∧
      ∀ r', IsDefault (afterFailover env rows candidate) candidate.network r' ↔ r' = r := by
  unfold afterFailover
  dsimp only
  by_cases hstored : env.successStored = true
  · refine ⟨{ moved candidate.network candidate.id candidate with lastSuccessAt := some env.now },
      rfl, rfl, fun r' => ?_⟩
    rw [if_pos hstored, updateLastSuccessAt, isDefault_update (fun r => by split_ifs <;> rfl)
      fun r => by split_ifs <;> rfl]
    simp only [isDefault_moveDefault hcandidate]
    constructor
    · rintro ⟨_, rfl, rfl⟩
      exact if_pos rfl
    · rintro rfl
      exact ⟨_, rfl, if_pos rfl⟩
  · refine ⟨moved candidate.network candidate.id candidate, rfl, rfl, fun r' => ?_⟩
    rw [if_neg hstored]
    exact isDefault_moveDefault hcandidate

theorem find?_of_failoverFrom {servers : List ServerRow} {s : ServerRow} (hs : s ∈ servers)
    (hurl : s.grpcUrl = env.currentGrpcUrl) (hfrom : failoverFrom env servers = some fromServer) :
    servers.find? (·.grpcUrl = env.currentGrpcUrl) = some fromServer := by
  unfold failoverFrom at hfrom
  cases hfind : servers.find? (·.grpcUrl = env.currentGrpcUrl) with
  | none => exact absurd (decide_eq_true hurl) (List.find?_eq_none.mp hfind s hs)
  | some first =>
    rw [hfind] at hfrom
    exact hfrom

theorem mem_left_of_find? {p : α → Bool} {l' : List α} (h : (l ++ l').find? p = some y) (hx : x ∈ l)
    (hp : p x = true) : y ∈ l := by
  rw [List.find?_append] at h
  cases hfind : l.find? p with
  | none => exact absurd hp (List.find?_eq_none.mp hfind x hx)
  | some z =>
    rw [hfind] at h
    cases h
    exact List.mem_of_find?_eq_some hfind

theorem mem_or_eq_of_find? {p : α → Bool} {l' : List α} (h : (l ++ x :: l').find? p = some y)
    (hp : p x = true) : y ∈ l ∨ y = x := by
  rw [List.append_cons] at h
  have hmem := mem_left_of_find? h (List.mem_append_right l (List.mem_singleton_self x)) hp
  rwa [List.mem_append, List.mem_singleton] at hmem

/-- **The URL that is returned** is the failing one exactly if that is repeated. -/
theorem failing_iff_repeats (hfrom : failoverFrom env (failoverServers env rows) = some fromServer)
    (hto : failoverTo env (failoverServers env rows) fromServer = some candidate) :
    candidate.grpcUrl = env.currentGrpcUrl ↔ RepeatsFailing env rows := by
  have hprobe := (mem_of_failoverTo hto).2.2.2
  have hnodup := nodup_failoverServers env rows
  unfold RepeatsFailing
  unfold failoverTo at hto
  generalize failoverServers env rows = servers at *
  constructor
  · intro hurl
    have hfirst := find?_of_failoverFrom (List.mem_of_find?_eq_some hto) hurl hfrom
    have hfromUrl : fromServer.grpcUrl = env.currentGrpcUrl := by simpa using List.find?_some hfirst
    obtain ⟨hchosen, before, after, rfl, hbefore⟩ := List.find?_eq_some_iff_append.mp hto
    rw [Bool.and_eq_true, decide_eq_true_eq] at hchosen
    refine ⟨hurl ▸ hprobe, before, candidate, after, rfl, hurl, ⟨fromServer, ?_, hfromUrl⟩, ?_⟩
    · refine (mem_or_eq_of_find? hfirst (decide_eq_true hurl)).resolve_right fun h => ?_
      exact hchosen.1 (congrArg ServerRow.id h.symm)
    · intro s hs hother
      have hid : s.id ≠ fromServer.id := by
        intro hid
        have hsame := List.inj_on_of_nodup_map hnodup (List.mem_append_left _ hs)
          (List.mem_of_find?_eq_some hfirst) hid
        exact hother (hsame ▸ hfromUrl)
      simpa [hid] using hbefore s hs
  · rintro ⟨hanswers, before, again, after, rfl, hagain, ⟨s, hs, hsurl⟩, hothers⟩
    have hfirst := find?_of_failoverFrom (List.mem_append_left _ hs) hsurl hfrom
    have hmem : fromServer ∈ before := mem_left_of_find? hfirst hs (decide_eq_true hsurl)
    -- the second row is not the one to leave
    have hid : again.id ≠ fromServer.id := by
      rw [List.map_append, List.map_cons, List.nodup_append] at hnodup
      exact fun h => hnodup.2.2 _ (List.mem_map_of_mem hmem) _ List.mem_cons_self h.symm
    have hchosen : (decide (again.id ≠ fromServer.id) && env.probe again.grpcUrl) = true := by
      rw [hagain, hanswers, decide_eq_true hid]
      rfl
    rcases mem_or_eq_of_find? hto hchosen with hbefore | rfl
    · by_contra hurl
      rw [hothers candidate hbefore hurl] at hprobe
      cases hprobe
    · exact hagain

/-- **The server of a failover** is one of the network with a valid URL that answers, and then the
only default. Its URL is another than the failing one exactly if that is not repeated. -/
theorem failover_server (env : FailoverEnv) (d : Database ρ) :
    (∀ url, (tryFailoverServer env d).1 = .ok (some url) →
      ∃ rows server rows' r, d.servers = some rows ∧ server ∈ rows ∧ server.grpcUrl = url ∧
        server.network = env.network ∧ env.validUrl url = true ∧ env.probe url = true ∧
        (tryFailoverServer env d).2.servers = some rows' ∧
        r.id = server.id ∧ r.grpcUrl = url ∧
        (∀ r', IsDefault rows' env.network r' ↔ r' = r) ∧
        (url ≠ env.currentGrpcUrl ↔ ¬ RepeatsFailing env rows)) ∧
    ((tryFailoverServer env d).1 = .ok none → (tryFailoverServer env d).2 = d) := by
  cases hrows : d.servers with
  | none =>
    have hresult : tryFailoverServer env d = (.error (.database (.noSuchTable .servers)), d) := by
      unfold tryFailoverServer listServers
      rw [hrows]
    rw [hresult]
    exact ⟨nofun, nofun⟩
  | some rows =>
    rw [tryFailoverServer_eq env hrows]
    cases hchoice : failoverChoice env rows with
    | none => exact ⟨nofun, fun _ => rfl⟩
    | some candidate =>
      cases env.commits with
      | false => exact ⟨nofun, nofun⟩
      | true =>
        refine ⟨fun url h => ?_, nofun⟩
        cases h
        obtain ⟨fromServer, hfrom, hto⟩ := failoverChoice_eq_some hchoice
        obtain ⟨hmem, hnetwork, hvalid, hprobe⟩ := mem_of_failoverTo hto
        obtain ⟨r, hid, hurl, hdefault⟩ := isDefault_afterFailover env hmem
        rw [hnetwork] at hdefault
        exact ⟨rows, candidate, _, r, rfl, hmem, rfl, hnetwork, hvalid, hprobe, rfl, hid, hurl,
          hdefault, not_congr (failing_iff_repeats hfrom hto)⟩

def onlyAnswers (url : String) : FailoverEnv where
  network := .mainnet
  currentGrpcUrl := "https://zec.rocks"
  validUrl _ := true
  probe u := u = url
  commits := true
  now := 20
  successStored := true

def mainnetUrls (s : AppDbState ℕ) : List (ℕ × String) :=
  match s.db.servers with
  | none => []
  | some rows => (rows.rows.filter (·.network = .mainnet)).map fun r => (r.id, r.grpcUrl)

theorem mem_mainnetUrls (answers : String) {s : AppDbState ℕ} (hrows : s.db.servers = some rows)
    {id : ℕ} {url : String} : (id, url) ∈ mainnetUrls s ↔
      ∃ r ∈ failoverServers (onlyAnswers answers) rows, r.id = id ∧ r.grpcUrl = url := by
  unfold mainnetUrls
  rw [hrows, List.mem_map]
  constructor
  · rintro ⟨r, hr, heq⟩
    obtain ⟨hmem, hnetwork⟩ := List.mem_filter.mp hr
    cases heq
    exact ⟨r, mem_failoverServers.mpr ⟨hmem, of_decide_eq_true hnetwork, rfl⟩, rfl, rfl⟩
  · rintro ⟨r, hr, rfl, rfl⟩
    obtain ⟨hmem, hnetwork, -⟩ := mem_failoverServers.mp hr
    exact ⟨r, List.mem_filter.mpr ⟨hmem, decide_eq_true hnetwork⟩, rfl⟩

theorem tryFailoverServer_onlyAnswers {s : AppDbState ℕ} (id : ℕ) {url : String}
    (hfailing : (id, "https://zec.rocks") ∈ mainnetUrls s)
    (hnext : ∀ i, (i, "https://zec.rocks") ∈ mainnetUrls s → ∃ j ≠ i, (j, url) ∈ mainnetUrls s) :
    (tryFailoverServer (onlyAnswers url) s.db).1 = .ok (some url) := by
  cases hrows : s.db.servers with
  | none =>
    rw [mainnetUrls, hrows] at hfailing
    cases hfailing
  | some rows =>
    obtain ⟨a, ha, -, haurl⟩ := (mem_mainnetUrls url hrows).mp hfailing
    obtain ⟨candidate, hchoice⟩ := exists_failoverChoice ha haurl fun s hs hsurl => by
      obtain ⟨j, hj, hmem⟩ := hnext s.id ((mem_mainnetUrls url hrows).mpr ⟨s, hs, rfl, hsurl⟩)
      obtain ⟨b, hb, rfl, hburl⟩ := (mem_mainnetUrls url hrows).mp hmem
      exact ⟨b, hb, hj, decide_eq_true hburl⟩
    obtain ⟨fromServer, -, hto⟩ := failoverChoice_eq_some hchoice
    have hurl : candidate.grpcUrl = url := of_decide_eq_true (mem_of_failoverTo hto).2.2.2
    rw [tryFailoverServer_eq _ hrows, hchoice]
    exact congrArg (fun u => Except.ok (some u)) hurl

theorem failover_server_seeded : ∃ s rows' r, Reach (appDbSystem ℕ) Free s ∧
    (tryFailoverServer (onlyAnswers "https://eu.zec.rocks") s.db).1 =
      .ok (some "https://eu.zec.rocks") ∧
    (tryFailoverServer (onlyAnswers "https://eu.zec.rocks") s.db).2.servers = some rows' ∧
    r.grpcUrl = "https://eu.zec.rocks" ∧ ∀ r', IsDefault rows' .mainnet r' ↔ r' = r := by
  obtain ⟨s, hs, hurls⟩ := exec_reach (S := appDbSystem ℕ) (G := Free)
    (s := ⟨Database.empty, false⟩)
    (p := fun s => mainnetUrls s = [(5, "https://sa.zec.rocks"), (4, "https://eu.zec.rocks"),
      (3, "https://na.zec.rocks"), (1, "https://zec.rocks")])
    [.applyMigrations fun _ => 10] (.inl ⟨rfl, rfl⟩) (along_free _ _) (by decide +kernel)
  have hresult : (tryFailoverServer (onlyAnswers "https://eu.zec.rocks") s.db).1 =
      .ok (some "https://eu.zec.rocks") := by
    refine tryFailoverServer_onlyAnswers 1 (by simp [hurls]) fun i hi => ⟨4, ?_, ?_⟩
    · rintro rfl
      simp [hurls] at hi
    · simp [hurls]
  obtain ⟨rows, server, rows', r, -, -, -, -, -, -, hafter, -, hurl, hdefault, -⟩ :=
    (failover_server (onlyAnswers "https://eu.zec.rocks") s.db).1 _ hresult
  exact ⟨s, rows', r, hs, hresult, hafter, hurl, hdefault⟩

/-- The user adds a server with the URL of a seeded one, which fails to broadcast but answers. -/
theorem failover_to_failing : ∃ s, Reach (appDbSystem ℕ) Free s ∧ s.opened = true ∧
    mainnetUrls s = [(77, "https://zec.rocks"), (5, "https://sa.zec.rocks"),
      (4, "https://eu.zec.rocks"), (3, "https://na.zec.rocks"), (1, "https://zec.rocks")] ∧
    (onlyAnswers "https://zec.rocks").currentGrpcUrl = "https://zec.rocks" ∧
    (tryFailoverServer (onlyAnswers "https://zec.rocks") s.db).1 =
      .ok (some "https://zec.rocks") := by
  obtain ⟨s, hs, hopen, hurls⟩ := exec_reach (S := appDbSystem ℕ) (G := Free)
    (s := ⟨Database.empty, false⟩)
    (p := fun s => s.opened = true ∧ mainnetUrls s = [(77, "https://zec.rocks"),
      (5, "https://sa.zec.rocks"), (4, "https://eu.zec.rocks"), (3, "https://na.zec.rocks"),
      (1, "https://zec.rocks")])
    [.applyMigrations fun _ => 10,
      .addServer ⟨fun _ => none, fun _ => .ok "main", 77, 15, false⟩ "mine" "https://zec.rocks"]
    (.inl ⟨rfl, rfl⟩) (along_free _ _) (by decide +kernel)
  refine ⟨s, hs, hopen, hurls, rfl, ?_⟩
  refine tryFailoverServer_onlyAnswers 1 (by simp [hurls]) fun i _ => ?_
  by_cases hi : i = 1
  · subst hi
    exact ⟨77, by decide, by simp [hurls]⟩
  · exact ⟨1, Ne.symm hi, by simp [hurls]⟩

end ZbagDb
