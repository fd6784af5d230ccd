import IsoLightK0.Mmu.Tables
import IsoLightK0.Support.Worlds

/-!
# The tables of an address space form a tree

The ghost world of an address space says which frames hold its tables and at
which place in the tree, which frames hold data, and which pages are mapped by
which leaf.  A table is placed by its path, the list of indices that lead to
it, the last index first; the root has the empty path.

The invariant relates a world to the entries that the tables hold.  It is
stated for an arbitrary assignment of entries, so that the steps that extend
the tree can be described without speaking about memory.
-/

namespace IsoLightK0

open PageTableFlags

inductive Role
  | table (path : List ℕ)
  | data
  deriving DecidableEq

structure World where
  role : ℕ → Option Role
  leaves : List ℕ → Option PageTableEntry

/-- Worlds are extended by giving uses to frames and leaves to pages. -/
instance : Preorder World where
  le w w' := (∀ p r, w.role p = some r → w'.role p = some r) ∧
    ∀ path e, w.leaves path = some e → w'.leaves path = some e
  le_refl _ := ⟨fun _ _ h => h, fun _ _ h => h⟩
  le_trans _ _ _ h₁ h₂ := ⟨fun p r h => h₂.1 p r (h₁.1 p r h),
    fun path e h => h₂.2 path e (h₁.2 path e h)⟩

namespace World

def assign (w : World) (p : ℕ) (r : Role) : World :=
  { w with role := Function.update w.role p (some r) }

def map (w : World) (path : List ℕ) (e : PageTableEntry) : World :=
  { w with leaves := Function.update w.leaves path (some e) }

@[simp] theorem role_assign_same (w : World) (p : ℕ) (r : Role) :
    (w.assign p r).role p = some r := by
  show Function.update w.role p (some r) p = some r
  rw [Function.update_self]

theorem role_assign_of_ne (w : World) {p q : ℕ} (r : Role) (h : q ≠ p) :
    (w.assign p r).role q = w.role q := by
  show Function.update w.role p (some r) q = w.role q
  rw [Function.update_of_ne h]

theorem role_assign_cases {w : World} {p q : ℕ} {r r' : Role}
    (h : (w.assign p r).role q = some r') :
    (q = p ∧ r' = r) ∨ w.role q = some r' := by
  by_cases heq : q = p
  · rw [heq, role_assign_same] at h
    cases h
    exact .inl ⟨heq, rfl⟩
  · rw [role_assign_of_ne w r heq] at h
    exact .inr h

theorem le_assign {w : World} {p : ℕ} (r : Role) (h : w.role p = none) :
    w ≤ w.assign p r := by
  refine ⟨?_, fun _ _ h => h⟩
  intro q r' hq
  have hne : q ≠ p := by
    rintro rfl
    rw [h] at hq
    cases hq
  rw [role_assign_of_ne w r hne]
  exact hq

theorem le_map {w : World} {path : List ℕ} (e : PageTableEntry)
    (h : w.leaves path = none) : w ≤ w.map path e := by
  refine ⟨fun _ _ h => h, ?_⟩
  intro path' e' hleaf
  have hne : path' ≠ path := by
    rintro rfl
    rw [h] at hleaf
    cases hleaf
  show Function.update w.leaves path (some e) path' = some e'
  rw [Function.update_of_ne hne]
  exact hleaf

end World

/-! ## The invariant -/

/-- The indices that an address space manages in the table with path `path`:
all of them, except that `span` bounds those of the root. -/
def Managed (span : ℕ) (path : List ℕ) (i : ℕ) : Prop :=
  i < tableEntries ∧ (path = [] → i < span)

/-- The table `t` is the one that the entry `i` of the table with path `path`
leads to. -/
def HangsAt (span : ℕ) (w : World) (entry : ℕ → ℕ → PageTableEntry)
    (path : List ℕ) (i t : ℕ) : Prop :=
  ∃ t', w.role t' = some (.table path) ∧ path.length < 3 ∧
    Managed span path i ∧ (entry t' i).isPresent = true ∧
      (entry t' i).physAddr.toNat = t

/-- The leaf `e` is in a lowest table, and leads to a data frame if leaves are
`confined`. -/
def MappedAt (confined : Prop) (w : World) (entry : ℕ → ℕ → PageTableEntry)
    (path : List ℕ) (e : PageTableEntry) : Prop :=
  ∃ t i path', path = i :: path' ∧ w.role t = some (.table path') ∧
    path'.length = 3 ∧ i < tableEntries ∧ entry t i = e ∧
      e.isPresent = true ∧ (confined → w.role e.physAddr.toNat = some .data)

/-- The entries `entry` of the tables of `w` form a tree below `root`, the
lowest tables hold exactly the leaves of `w`, and no frame in use is free. -/
structure Forest (span : ℕ) (confined : Prop) (root : ℕ) (w : World)
    (entry : ℕ → ℕ → PageTableEntry) (free : ℕ → Prop) : Prop where
  root_iff : ∀ {p}, w.role p = some (.table []) ↔ p = root
  used : ∀ {p r}, w.role p = some r → p % frameSize = 0 ∧ ¬ free p
  child : ∀ {t path i}, w.role t = some (.table path) → path.length < 3 →
    Managed span path i → (entry t i).isPresent = true →
      (entry t i).flags = mid ∧
        w.role (entry t i).physAddr.toNat = some (.table (i :: path))
  parent : ∀ {t i path}, w.role t = some (.table (i :: path)) →
    HangsAt span w entry path i t
  leaf : ∀ {t path i}, w.role t = some (.table path) → path.length = 3 →
    i < tableEntries → (entry t i).isPresent = true →
      w.leaves (i :: path) = some (entry t i)
  mapped : ∀ {path e}, w.leaves path = some e →
    MappedAt confined w entry path e

namespace Forest

variable {span : ℕ} {confined : Prop} {root : ℕ} {w : World}
  {entry entry' : ℕ → ℕ → PageTableEntry} {free free' : ℕ → Prop}

section Growth

variable (h : Forest span confined root w entry free)

include h

theorem table_unique {path : List ℕ} {t t' : ℕ}
    (ht : w.role t = some (.table path)) (ht' : w.role t' = some (.table path)) :
    t = t' := by
  induction path generalizing t t' with
  | nil => rw [h.root_iff.mp ht, h.root_iff.mp ht']
  | cons i path ih =>
    obtain ⟨q, hq, -, -, -, haddr⟩ := h.parent ht
    obtain ⟨q', hq', -, -, -, haddr'⟩ := h.parent ht'
    rw [← haddr, ← haddr', ih hq hq']

theorem role_none_of_free {p : ℕ} (hfree : free p) : w.role p = none := by
  cases hrole : w.role p with
  | none => rfl
  | some r => exact ((h.used hrole).2 hfree).elim

theorem leaf_eq_none {t i : ℕ} {path : List ℕ}
    (ht : w.role t = some (.table path))
    (habsent : (entry t i).isPresent = false) :
    w.leaves (i :: path) = none := by
  cases hleaf : w.leaves (i :: path) with
  | none => rfl
  | some e =>
    obtain ⟨t', j, path', hpath, ht', -, -, he, hpresent, -⟩ := h.mapped hleaf
    cases hpath
    rw [h.table_unique ht' ht] at he
    rw [he, hpresent] at habsent
    cases habsent

/-- A tree grows: frames cease to be free, present entries are kept, and each
use, each present entry and each leaf is an old one or has its place. -/
theorem grow {w' : World} (hle : w ≤ w') (hfree : ∀ {p}, free' p → free p)
    (hkept : ∀ {t path i}, w.role t = some (.table path) → i < tableEntries →
      (entry t i).isPresent = true → entry' t i = entry t i)
    (hused : ∀ {p r}, w'.role p = some r →
      w.role p = some r ∨ (p % frameSize = 0 ∧ ¬ free' p ∧ r ≠ .table [] ∧
        ∀ i path, r = .table (i :: path) → HangsAt span w' entry' path i p))
    (hpresent : ∀ {t path i}, w'.role t = some (.table path) →
      i < tableEntries → (entry' t i).isPresent = true →
        (w.role t = some (.table path) ∧ (entry t i).isPresent = true) ∨
        (path.length < 3 ∧ (entry' t i).flags = mid ∧
          w'.role (entry' t i).physAddr.toNat = some (.table (i :: path))) ∨
        (path.length = 3 ∧ w'.leaves (i :: path) = some (entry' t i)))
    (hleaves : ∀ {path e}, w'.leaves path = some e →
      w.leaves path = some e ∨ MappedAt confined w' entry' path e) :
    Forest span confined root w' entry' free' where
  root_iff {p} := by
    refine ⟨fun hp => ?_, fun hp => hle.1 _ _ (h.root_iff.mpr hp)⟩
    rcases hused hp with hold | ⟨-, -, hne, -⟩
    · exact h.root_iff.mp hold
    · exact (hne rfl).elim
  used {p r} hp := by
    rcases hused hp with hold | ⟨haligned, hnot, -⟩
    · exact ⟨(h.used hold).1, fun hp => (h.used hold).2 (hfree hp)⟩
    · exact ⟨haligned, hnot⟩
  child {t path i} ht hlen hi hpres := by
    rcases hpresent ht hi.1 hpres with ⟨hold, hpres⟩ | ⟨-, hnew⟩ | ⟨hlast, -⟩
    · obtain ⟨hflags, hrole⟩ := h.child hold hlen hi hpres
      rw [hkept hold hi.1 hpres]
      exact ⟨hflags, hle.1 _ _ hrole⟩
    · exact hnew
    · omega
  parent {t i path} ht := by
    rcases hused ht with hold | ⟨-, -, -, hnew⟩
    · obtain ⟨t', ht', hlen, hi, hentry⟩ := h.parent hold
      refine ⟨t', hle.1 _ _ ht', hlen, hi, ?_⟩
      rw [hkept ht' hi.1 hentry.1]
      exact hentry
    · exact hnew i path rfl
  leaf {t path i} ht hlen hi hpres := by
    rcases hpresent ht hi hpres with ⟨hold, hpres⟩ | ⟨hshort, -⟩ | ⟨-, hnew⟩
    · rw [hkept hold hi hpres]
      exact hle.2 _ _ (h.leaf hold hlen hi hpres)
    · omega
    · exact hnew
  mapped {path e} hleaf := by
    rcases hleaves hleaf with hold | hnew
    · obtain ⟨t, i, path', hpath, ht, hlen, hi, he, hpres, hdata⟩ :=
        h.mapped hold
      refine ⟨t, i, path', hpath, hle.1 _ _ ht, hlen, hi, ?_, hpres,
        fun hc => hle.1 _ _ (hdata hc)⟩
      rw [hkept ht hi (he ▸ hpres)]
      exact he
    · exact hnew

/-- Only the entries of tables matter, and frames may cease to be free. -/
theorem congr
    (hentry : ∀ {t path i}, w.role t = some (.table path) →
      i < tableEntries → entry' t i = entry t i)
    (hfree : ∀ {p}, free' p → free p) :
    Forest span confined root w entry' free' := by
  refine h.grow le_rfl hfree (fun ht hi _ => hentry ht hi) .inl ?_ .inl
  intro t path i ht hi hpres
  rw [hentry ht hi] at hpres
  exact .inl ⟨ht, hpres⟩

theorem assign_data {p : ℕ} (hnone : w.role p = none)
    (haligned : p % frameSize = 0) (hp : ¬ free p) :
    Forest span confined root (w.assign p .data) entry free := by
  refine h.grow (World.le_assign .data hnone) id (fun _ _ _ => rfl) ?_ ?_ .inl
  · intro q r hq
    rcases World.role_assign_cases hq with ⟨rfl, rfl⟩ | hold
    · exact .inr ⟨haligned, hp, nofun, nofun⟩
    · exact .inl hold
  · intro t path i ht _ hpres
    rcases World.role_assign_cases ht with ⟨-, hr⟩ | hold
    · cases hr
    · exact .inl ⟨hold, hpres⟩

end Growth

section NewEntry

-- The entry `i` of a table was absent and is the only one that changes.
variable {t i : ℕ} {path : List ℕ} (ht : w.role t = some (.table path))
  (hsame : ∀ {t' path' j}, w.role t' = some (.table path') →
    j < tableEntries → ¬ (t' = t ∧ j = i) → entry' t' j = entry t' j)

include ht hsame

theorem kept_of_absent (habsent : (entry t i).isPresent = false)
    {t' j : ℕ} {path' : List ℕ} (ht' : w.role t' = some (.table path'))
    (hj : j < tableEntries) (hpres : (entry t' j).isPresent = true) :
    entry' t' j = entry t' j := by
  apply hsame ht' hj
  rintro ⟨rfl, rfl⟩
  rw [habsent] at hpres
  cases hpres

theorem present_cases {t' j : ℕ} {path' : List ℕ}
    (ht' : w.role t' = some (.table path')) (hj : j < tableEntries)
    (hpres : (entry' t' j).isPresent = true) :
    (entry t' j).isPresent = true ∨ (t' = t ∧ j = i ∧ path' = path) := by
  by_cases heq : t' = t ∧ j = i
  · obtain ⟨rfl, rfl⟩ := heq
    rw [ht] at ht'
    cases ht'
    exact .inr ⟨rfl, rfl, rfl⟩
  · rw [hsame ht' hj heq] at hpres
    exact .inl hpres

theorem assign_table (h : Forest span confined root w entry free) {p : ℕ}
    (hnone : w.role p = none) (haligned : p % frameSize = 0) (hp : ¬ free p)
    (hlen : path.length < 3) (hi : Managed span path i)
    (habsent : (entry t i).isPresent = false)
    (hflags : (entry' t i).flags = mid)
    (hpresent : (entry' t i).isPresent = true)
    (haddr : (entry' t i).physAddr.toNat = p)
    (hempty : ∀ j, j < tableEntries → (entry' p j).isPresent = false) :
    Forest span confined root (w.assign p (.table (i :: path))) entry'
      free := by
  have hle : w ≤ w.assign p (.table (i :: path)) := World.le_assign _ hnone
  refine h.grow hle id (kept_of_absent ht hsame habsent) ?_ ?_ .inl
  · intro q r hq
    rcases World.role_assign_cases hq with ⟨rfl, rfl⟩ | hold
    · refine .inr ⟨haligned, hp, nofun, ?_⟩
      rintro _ _ ⟨⟩
      exact ⟨t, hle.1 _ _ ht, hlen, hi, hpresent, haddr⟩
    · exact .inl hold
  · intro t' path' j ht' hj hpres
    rcases World.role_assign_cases ht' with ⟨rfl, -⟩ | hold
    · rw [hempty j hj] at hpres
      cases hpres
    · rcases present_cases ht hsame hold hj hpres with
        hpres | ⟨rfl, rfl, rfl⟩
      · exact .inl ⟨hold, hpres⟩
      · rw [haddr]
        exact .inr (.inl ⟨hlen, hflags, World.role_assign_same w p _⟩)

theorem map_leaf (h : Forest span confined root w entry free)
    (hlen : path.length = 3) (hi : i < tableEntries)
    (habsent : (entry t i).isPresent = false)
    (hpresent : (entry' t i).isPresent = true)
    (hdata : confined → w.role (entry' t i).physAddr.toNat = some .data) :
    Forest span confined root (w.map (i :: path) (entry' t i)) entry' free := by
  have hle := World.le_map (entry' t i) (h.leaf_eq_none ht habsent)
  refine h.grow hle id (kept_of_absent ht hsame habsent) .inl ?_ ?_
  · intro t' path' j (ht' : w.role t' = some (.table path')) hj hpres
    rcases present_cases ht hsame ht' hj hpres with hpres | ⟨rfl, rfl, rfl⟩
    · exact .inl ⟨ht', hpres⟩
    · refine .inr (.inr ⟨hlen, ?_⟩)
      simp [World.map]
  · intro path' e hleaf
    by_cases hpath : path' = i :: path
    · obtain rfl : entry' t i = e := by
        rw [hpath] at hleaf
        simpa [World.map] using hleaf
      exact .inr ⟨t, i, path, hpath, ht, hlen, hi, rfl, hpresent, hdata⟩
    · left
      simpa [World.map, Function.update_of_ne hpath] using hleaf

end NewEntry

end Forest

end IsoLightK0
