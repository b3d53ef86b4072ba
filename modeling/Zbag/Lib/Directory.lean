import Mathlib.Data.Nat.Notation
import Mathlib.Logic.Function.Basic
import Mathlib.Tactic.Common

/-!
# A directory of files

A name leads to a file, which has an identity and contents. A file that was created keeps its
identity when it is renamed; a handle writes to the file it was opened on, wherever that file is
now, and to nothing once the file is removed.

* `create`, `write`, `rename`, `remove`, `list`;
* `file_create`, `file_write`, `file_rename`, `file_remove`: the files afterwards.
-/

universe u v

structure File (δ : Type v) where
  id : ℕ
  data : δ
  deriving DecidableEq, Repr

/-- Only listed names are in use, and identities from `next` on are free. -/
structure Directory (π : Type u) (δ : Type v) where
  file : π → Option (File δ)
  names : List π
  next : ℕ
  inUse : ∀ p f, file p = some f → p ∈ names ∧ f.id < next

namespace Directory

variable {π : Type u} {δ : Type v}

def empty : Directory π δ := ⟨fun _ => none, [], 0, nofun⟩

variable {d : Directory π δ} {p q : π}

theorem id_lt {f : File δ} (h : d.file p = some f) : f.id < d.next :=
  (d.inUse p f h).2

/-- `read_dir`. -/
def list (d : Directory π δ) : List π := d.names.filter fun p => (d.file p).isSome

theorem mem_list : p ∈ d.list ↔ (d.file p).isSome = true := by
  rw [list, List.mem_filter]
  constructor
  · exact And.right
  · intro h
    obtain ⟨f, hf⟩ := Option.isSome_iff_exists.mp h
    exact ⟨(d.inUse p f hf).1, h⟩

def write (d : Directory π δ) (id : ℕ) (data : δ) : Directory π δ where
  file p := (d.file p).map fun f => if f.id = id then ⟨f.id, data⟩ else f
  names := d.names
  next := d.next
  inUse p f hf := by
    obtain ⟨g, hg, rfl⟩ := Option.map_eq_some_iff.mp hf
    have hold := d.inUse p g hg
    split_ifs <;> exact hold

theorem file_write (d : Directory π δ) (id : ℕ) (data : δ) (p : π) :
    (d.write id data).file p = (d.file p).map fun f => if f.id = id then ⟨f.id, data⟩ else f :=
  rfl

theorem file_write_self {f : File δ} (h : d.file p = some f) (data : δ) :
    (d.write f.id data).file p = some ⟨f.id, data⟩ := by
  rw [file_write, h, Option.map_some, if_pos rfl]

theorem file_write_of_ne {id : ℕ} (h : ∀ f, d.file p = some f → f.id ≠ id) (data : δ) :
    (d.write id data).file p = d.file p := by
  rw [file_write]
  cases hf : d.file p with
  | none => rfl
  | some f => rw [Option.map_some, if_neg (h f hf)]

/-- Files are only taken away. -/
def Thins (d d' : Directory π δ) : Prop := ∀ p f, d'.file p = some f → d.file p = some f

theorem Thins.refl (d : Directory π δ) : Thins d d := fun _ _ h => h

theorem Thins.trans {d' d'' : Directory π δ} (h : Thins d d') (h' : Thins d' d'') : Thins d d'' :=
  fun p f hf => h p f (h' p f hf)

@[simp] theorem isSome_file_write (d : Directory π δ) (id : ℕ) (data : δ) (p : π) :
    ((d.write id data).file p).isSome = (d.file p).isSome := by
  rw [file_write, Option.isSome_map]

variable [DecidableEq π]

/-- Whatever was there; its handle is `next`. -/
def create (d : Directory π δ) (p : π) (data : δ) : Directory π δ where
  file := Function.update d.file p (some ⟨d.next, data⟩)
  names := p :: d.names
  next := d.next + 1
  inUse q f hf := by
    by_cases hq : q = p
    · subst hq
      rw [Function.update_self, Option.some.injEq] at hf
      subst hf
      exact ⟨List.mem_cons_self, Nat.lt_succ_self _⟩
    · rw [Function.update_of_ne hq] at hf
      have hold := d.inUse q f hf
      exact ⟨List.mem_cons_of_mem _ hold.1, Nat.lt_succ_of_lt hold.2⟩

theorem file_create (d : Directory π δ) (p : π) (data : δ) :
    (d.create p data).file p = some ⟨d.next, data⟩ :=
  Function.update_self ..

theorem file_create_of_ne (d : Directory π δ) (h : q ≠ p) (data : δ) :
    (d.create p data).file q = d.file q :=
  Function.update_of_ne h ..

/-- What had the name `q` is gone. -/
def rename (d : Directory π δ) (p q : π) : Directory π δ where
  file := Function.update (Function.update d.file p none) q (d.file p)
  names := q :: d.names
  next := d.next
  inUse r f hf := by
    by_cases hr : r = q
    · subst hr
      rw [Function.update_self] at hf
      exact ⟨List.mem_cons_self, id_lt hf⟩
    · rw [Function.update_of_ne hr] at hf
      by_cases hrp : r = p
      · subst hrp
        rw [Function.update_self] at hf
        cases hf
      · rw [Function.update_of_ne hrp] at hf
        have hold := d.inUse r f hf
        exact ⟨List.mem_cons_of_mem _ hold.1, hold.2⟩

theorem file_rename (d : Directory π δ) (p q : π) : (d.rename p q).file q = d.file p :=
  Function.update_self ..

theorem file_rename_of_ne (d : Directory π δ) {r : π} (hq : r ≠ q) (hp : r ≠ p) :
    (d.rename p q).file r = d.file r := by
  show Function.update (Function.update d.file p none) q (d.file p) r = d.file r
  rw [Function.update_of_ne hq, Function.update_of_ne hp]

/-- `remove_file`. -/
def remove (d : Directory π δ) (p : π) : Directory π δ where
  file := Function.update d.file p none
  names := d.names
  next := d.next
  inUse q f hf := by
    by_cases hq : q = p
    · subst hq
      rw [Function.update_self] at hf
      cases hf
    · rw [Function.update_of_ne hq] at hf
      exact d.inUse q f hf

theorem file_remove (d : Directory π δ) (p : π) : (d.remove p).file p = none :=
  Function.update_self ..

theorem file_remove_of_ne (d : Directory π δ) (h : q ≠ p) : (d.remove p).file q = d.file q :=
  Function.update_of_ne h ..

theorem thins_remove (d : Directory π δ) (p : π) : Thins d (d.remove p) := by
  intro q f hf
  by_cases hq : q = p
  · subst hq
    rw [file_remove] at hf
    cases hf
  · rw [file_remove_of_ne d hq] at hf
    exact hf

end Directory
