import Mathlib.Data.List.Nodup
import Mathlib.Tactic.Common

/-!
# Tables with a primary key

A `Table key` is a list of rows no two of which have the same key. Inserting a row fails when its
key is taken; an update rewrites the row with a given key, or all rows, and keeps the keys.

* `count_insert`, `count_modify`: how many rows have a property;
* `countP_set_add`, `countP_modify_le`, `countP_modify`, `countP_le_one`: the same for a list,
  after one element is replaced and by the places at which the property holds.
-/

universe u v

structure Table {α : Type u} {κ : Type v} (key : α → κ) where
  rows : List α
  nodup : (rows.map key).Nodup

namespace Table

variable {α : Type u} {κ : Type v} {key : α → κ}

instance : Membership α (Table key) := ⟨fun t a => a ∈ t.rows⟩

def empty : Table key := ⟨[], List.nodup_nil⟩

theorem not_mem_empty (a : α) : a ∉ (empty : Table key) := List.not_mem_nil

variable {t : Table key} {a b : α} {t' : Table key} {f : α → α} {p : α → Bool} {k : κ} {l : List α}

theorem eq_of_key (ha : a ∈ t) (hb : b ∈ t) (h : key a = key b) : a = b :=
  List.inj_on_of_nodup_map t.nodup ha hb h

def count (t : Table key) (p : α → Bool) : ℕ := t.rows.countP p

@[ext] theorem ext (h : t.rows = t'.rows) : t = t' := by
  cases t
  cases t'
  cases h
  rfl

/-- `UPDATE` -/
def update (t : Table key) (f : α → α) (hf : ∀ a, key (f a) = key a) : Table key where
  rows := t.rows.map f
  nodup := by
    have hkey : key ∘ f = key := funext hf
    rw [List.map_map, hkey]
    exact t.nodup

theorem rows_update (t : Table key) (f : α → α) (hf : ∀ a, key (f a) = key a) :
    (t.update f hf).rows = t.rows.map f := rfl

theorem mem_update {hf : ∀ a, key (f a) = key a} : b ∈ t.update f hf ↔ ∃ a ∈ t, f a = b :=
  List.mem_map

def delete (t : Table key) (p : α → Bool) : Table key where
  rows := t.rows.filter fun a => !p a
  nodup := t.nodup.sublist (List.filter_sublist.map key)

theorem rows_delete (t : Table key) (p : α → Bool) :
    (t.delete p).rows = t.rows.filter fun a => !p a := rfl

theorem mem_delete : b ∈ t.delete p ↔ b ∈ t ∧ p b = false := by
  refine List.mem_filter.trans (and_congr_right fun _ => ?_)
  simp

variable [DecidableEq κ]

def find? (t : Table key) (k : κ) : Option α := t.rows.find? fun a => key a = k

/-- `INSERT`: fails when the key is taken. -/
def insert (t : Table key) (a : α) : Option (Table key) :=
  if h : key a ∈ t.rows.map key then none
  else some ⟨a :: t.rows, by rw [List.map_cons]; exact List.nodup_cons.mpr ⟨h, t.nodup⟩⟩

/-- `UPDATE … WHERE key = k` -/
def modify (t : Table key) (k : κ) (f : α → α) (hf : ∀ a, key a = k → key (f a) = k) :
    Table key where
  rows := t.rows.map fun a => if key a = k then f a else a
  nodup := by
    have hkey : (key ∘ fun a => if key a = k then f a else a) = key := by
      funext a
      by_cases h : key a = k
      · simp [h, hf a h]
      · simp [h]
    rw [List.map_map, hkey]
    exact t.nodup

theorem mem_find? : t.find? k = some a ↔ a ∈ t ∧ key a = k := by
  constructor
  · intro h
    exact ⟨List.mem_of_find?_eq_some h, by simpa using List.find?_some h⟩
  · rintro ⟨ha, rfl⟩
    cases hb : t.find? (key a) with
    | none =>
      have hne := List.find?_eq_none.mp hb a ha
      simp at hne
    | some b =>
      have hkey : key b = key a := by simpa using List.find?_some hb
      rw [eq_of_key (List.mem_of_find?_eq_some hb) ha hkey]

theorem rows_insert (h : t.insert a = some t') : t'.rows = a :: t.rows := by
  unfold insert at h
  split_ifs at h
  rw [Option.some.injEq] at h
  subst h
  rfl

theorem mem_insert (h : t.insert a = some t') : b ∈ t' ↔ b = a ∨ b ∈ t := by
  change b ∈ t'.rows ↔ _
  rw [rows_insert h]
  exact List.mem_cons

theorem not_mem_of_insert (h : t.insert a = some t') : a ∉ t := by
  intro ha
  unfold insert at h
  rw [dif_pos (List.mem_map_of_mem ha)] at h
  cases h

theorem insert_of_fresh (h : ∀ b ∈ t, key b ≠ key a) : ∃ t', t.insert a = some t' := by
  have hmem : key a ∉ t.rows.map key := fun hm => by
    obtain ⟨b, hb, hk⟩ := List.mem_map.mp hm
    exact h b hb hk
  exact ⟨_, dif_neg hmem⟩

theorem insert_update (t : Table key) (f : α → α) (hf : ∀ a, key (f a) = key a) (a : α) :
    (t.update f hf).insert (f a) = (t.insert a).map (update · f hf) := by
  have hmem : key (f a) ∈ (t.update f hf).rows.map key ↔ key a ∈ t.rows.map key := by
    have hkey : key ∘ f = key := funext hf
    rw [update, List.map_map, hkey, hf]
  unfold insert
  by_cases h : key a ∈ t.rows.map key
  · rw [dif_pos h, dif_pos (hmem.mpr h)]
    rfl
  · rw [dif_neg h, dif_neg (mt hmem.mp h)]
    rfl

theorem mem_modify {hf : ∀ a, key a = k → key (f a) = k}
    : b ∈ t.modify k f hf ↔ (b ∈ t ∧ key b ≠ k) ∨ ∃ a ∈ t, key a = k ∧ f a = b := by
  constructor
  · intro h
    obtain ⟨a, ha, hb⟩ := List.mem_map.mp h
    by_cases hk : key a = k
    · rw [if_pos hk] at hb
      exact .inr ⟨a, ha, hk, hb⟩
    · rw [if_neg hk] at hb
      exact .inl ⟨hb ▸ ha, hb ▸ hk⟩
  · rintro (⟨hb, hk⟩ | ⟨a, ha, hk, rfl⟩)
    · exact List.mem_map.mpr ⟨b, hb, if_neg hk⟩
    · exact List.mem_map.mpr ⟨a, ha, if_pos hk⟩

theorem count_insert (h : t.insert a = some t') :
    t'.count p = t.count p + if p a then 1 else 0 := by
  unfold count
  rw [rows_insert h]
  exact List.countP_cons

theorem count_modify {hf : ∀ a, key a = k → key (f a) = k}
    (hp : ∀ a ∈ t, key a = k → p (f a) = p a) :
    (t.modify k f hf).count p = t.count p := by
  unfold count modify
  rw [List.countP_map]
  refine List.countP_congr fun a ha => ?_
  by_cases hk : key a = k
  · simp [hk, hp a ha hk]
  · simp [hk]

theorem countP_set_add {i : ℕ} (p : α → Bool) (h : l[i]? = some a) :
    (l.set i b).countP p + (if p a then 1 else 0) = l.countP p + if p b then 1 else 0 := by
  obtain ⟨hi, ha⟩ := List.getElem?_eq_some_iff.mp h
  rw [List.countP_set hi, ha]
  by_cases hp : p a = true
  · have hpos : 0 < l.countP p := List.countP_pos_iff.mpr ⟨a, ha ▸ List.getElem_mem hi, hp⟩
    simp only [hp, if_true]
    omega
  · simp [hp]

theorem countP_le_one
    (h : ∀ (i j : ℕ) (a b : α), l[i]? = some a → l[j]? = some b → p a = true → p b = true → i = j) :
    l.countP p ≤ 1 := by
  induction l with
  | nil => exact Nat.zero_le 1
  | cons x l ih =>
    by_cases hx : p x = true
    · -- the head has the property, so nothing behind it does
      have hzero : l.countP p = 0 := by
        refine List.countP_eq_zero.mpr fun a ha hp => ?_
        obtain ⟨i, hi⟩ := List.mem_iff_getElem?.mp ha
        exact absurd (h 0 (i + 1) x a rfl hi hx hp) (Nat.succ_ne_zero i).symm
      have hone : (x :: l).countP p = 1 := by rw [List.countP_cons, hzero, if_pos hx]
      exact Nat.le_of_eq hone
    · rw [List.countP_cons, if_neg hx]
      exact ih fun i j a b hi hj ha hb => Nat.succ.inj (h (i + 1) (j + 1) a b hi hj ha hb)

theorem countP_modify_le (i : ℕ) (h : ∀ a, p (f a) = true → p a = true) :
    (l.modify i f).countP p ≤ l.countP p := by
  rw [List.modify_eq_set_getElem?]
  cases ha : l[i]? with
  | none => exact Nat.le_refl _
  | some a =>
    have hset := countP_set_add (b := f a) p ha
    have hle : (if p (f a) = true then 1 else 0) ≤ if p a = true then 1 else 0 := by
      by_cases hf : p (f a) = true
      · simp [hf, h a hf]
      · simp [hf]
    change (l.set i (f a)).countP p ≤ l.countP p
    omega

theorem countP_modify (i : ℕ) (h : ∀ a, p (f a) = p a) : (l.modify i f).countP p = l.countP p := by
  rw [List.modify_eq_set_getElem?]
  cases ha : l[i]? with
  | none => rfl
  | some a =>
    have hset := countP_set_add (b := f a) p ha
    rw [h a] at hset
    change (l.set i (f a)).countP p = l.countP p
    omega

end Table
