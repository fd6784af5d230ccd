import Mathlib.Data.List.Range
import Mathlib.Order.Basic
import Mathlib.Tactic.Common

/-!
# Radix trees whose tables lie in a heap

A table is named by its address and has numbered entries.  An entry is absent,
or a leaf, or leads to the table below.  A key is read as one index for each
level, from the highest level `top` down to level 1.

`Reaches` follows a key down, `walk` lists the entries on the way, and `lookup`
returns the leaf at its end.  What can be said about the tables that are reached
is said by a labelling of the addresses: a rule ties the label of a table to the
entries in it.  Labels are only ever added, so rules are monotone in the
labelling.
-/

namespace Radix

/-- How entries are read; whether an entry is a leaf depends on its level. -/
structure Format (E : Type) where
  present : E → Bool
  leaf : ℕ → E → Bool
  next : E → ℕ

/-- The entry leads to a table of the level below. -/
def Format.Links {E : Type} (F : Format E) (level : ℕ) (e : E) : Prop :=
  F.present e = true ∧ F.leaf level e = false

section Walks

variable {E : Type} (F : Format E) (entry : ℕ → ℕ → E) (index : ℕ → ℕ)

/-- The entries that the key passes on its way from a table of the level down
to a leaf, with their levels. -/
def walk : (level table : ℕ) → Option (List (ℕ × E))
  | 0, _ => none
  | level + 1, table =>
    let e := entry table (index (level + 1))
    if F.present e = false then none
    else if F.leaf (level + 1) e then some [(level + 1, e)]
    else (walk level (F.next e)).map ((level + 1, e) :: ·)

/-- The leaf that the key leads to, with its level. -/
def lookup (level table : ℕ) : Option (ℕ × E) :=
  (walk F entry index level table).bind List.getLast?

/-- The tables on the way down from a root, with their levels. -/
inductive Reaches (top root : ℕ) : (level table : ℕ) → Prop
  | root : Reaches top root top root
  | down {level table : ℕ} : Reaches top root (level + 1) table →
      F.Links (level + 1) (entry table (index (level + 1))) →
      Reaches top root level (F.next (entry table (index (level + 1))))

end Walks

section WalkLemmas

variable {E : Type} {F : Format E} {entry entry' : ℕ → ℕ → E}
  {index index' : ℕ → ℕ} {top root level table : ℕ}

theorem walk_of_leaf
    (hpresent : F.present (entry table (index (level + 1))) = true)
    (hleaf : F.leaf (level + 1) (entry table (index (level + 1))) = true) :
    walk F entry index (level + 1) table =
      some [(level + 1, entry table (index (level + 1)))] := by
  rw [walk, if_neg (Bool.not_eq_false _ ▸ hpresent), if_pos hleaf]

theorem walk_of_links
    (h : F.Links (level + 1) (entry table (index (level + 1)))) :
    walk F entry index (level + 1) table =
      (walk F entry index level (F.next (entry table (index (level + 1))))).map
        ((level + 1, entry table (index (level + 1))) :: ·) := by
  rw [walk, if_neg (Bool.not_eq_false _ ▸ h.1),
    if_neg (Bool.not_eq_true _ ▸ h.2)]

theorem walk_ne_nil {path : List (ℕ × E)}
    (h : walk F entry index level table = some path) : path ≠ [] := by
  cases level with
  | zero => cases h
  | succ level =>
    rw [walk] at h
    split at h
    · cases h
    · split at h
      · cases h
        exact List.cons_ne_nil _ _
      · obtain ⟨rest, -, rfl⟩ := Option.map_eq_some_iff.mp h
        exact List.cons_ne_nil _ _

theorem lookup_of_absent
    (h : F.present (entry table (index (level + 1))) = false) :
    lookup F entry index (level + 1) table = none := by
  rw [lookup, walk, if_pos h]
  rfl

theorem lookup_of_leaf
    (hpresent : F.present (entry table (index (level + 1))) = true)
    (hleaf : F.leaf (level + 1) (entry table (index (level + 1))) = true) :
    lookup F entry index (level + 1) table =
      some (level + 1, entry table (index (level + 1))) := by
  rw [lookup, walk_of_leaf hpresent hleaf]
  rfl

theorem lookup_of_links
    (h : F.Links (level + 1) (entry table (index (level + 1)))) :
    lookup F entry index (level + 1) table =
      lookup F entry index level
        (F.next (entry table (index (level + 1)))) := by
  rw [lookup, walk_of_links h, lookup]
  cases hrest : walk F entry index level
      (F.next (entry table (index (level + 1)))) with
  | none => rfl
  | some path =>
    obtain ⟨e, rest, rfl⟩ := List.exists_cons_of_ne_nil (walk_ne_nil hrest)
    exact List.getLast?_cons_cons

theorem entry_cases (F : Format E) (level : ℕ) (e : E) :
    F.present e = false ∨ (F.present e = true ∧ F.leaf level e = true) ∨
      F.Links level e := by
  unfold Format.Links
  cases F.present e with
  | false => exact .inl rfl
  | true =>
    cases F.leaf level e with
    | false => exact .inr (.inr ⟨rfl, rfl⟩)
    | true => exact .inr (.inl ⟨rfl, rfl⟩)

namespace Reaches

variable (h : Reaches F entry index top root level table)

include h

/-- What holds of the root and is handed down holds of every table reached. -/
theorem invariant {I : ℕ → ℕ → Prop} (hroot : I top root)
    (hdown : ∀ {level table}, I (level + 1) table →
      F.Links (level + 1) (entry table (index (level + 1))) →
        I level (F.next (entry table (index (level + 1))))) :
    I level table := by
  induction h with
  | root => exact hroot
  | down _ hlinks ih => exact hdown ih hlinks

theorem level_le :
    level ≤ top :=
  h.invariant (I := fun level _ => level ≤ top) le_rfl
    fun hle _ => Nat.le_of_succ_le hle

theorem lookup_eq :
    lookup F entry index top root = lookup F entry index level table := by
  induction h with
  | root => rfl
  | down _ hlinks ih => rw [ih, lookup_of_links hlinks]

/-- A table is still reached if the links on the way have been kept. -/
theorem mono
    (hkeep : ∀ {level table}, Reaches F entry index top root (level + 1) table →
      F.Links (level + 1) (entry table (index (level + 1))) →
        entry' table (index (level + 1)) = entry table (index (level + 1))) :
    Reaches F entry' index top root level table := by
  induction h with
  | root => exact .root
  | down hup hlinks ih =>
    have hentry := hkeep hup hlinks
    rw [← hentry] at hlinks ⊢
    exact .down ih hlinks

/-- Keys with the same upper indices reach the same tables. -/
theorem of_index (hsame : ∀ k, level < k → k ≤ top → index' k = index k) :
    Reaches F entry index' top root level table := by
  induction h with
  | root => exact .root
  | down hup hlinks ih =>
    rw [← hsame _ (Nat.lt_succ_self _) hup.level_le] at hlinks ⊢
    exact .down (ih fun k hk => hsame k (Nat.lt_of_succ_lt hk)) hlinks

/-- A leaf that is found lies in a table that was reached. -/
theorem exists_leaf {k : ℕ} {e : E}
    (hlookup : lookup F entry index level table = some (k, e)) :
    ∃ t, Reaches F entry index top root k t ∧ 0 < k ∧
      entry t (index k) = e ∧ F.present e = true ∧ F.leaf k e = true := by
  induction level generalizing table with
  | zero => cases hlookup
  | succ level ih =>
    rcases entry_cases F (level + 1) (entry table (index (level + 1))) with
      habsent | ⟨hpresent, hleaf⟩ | hlinks
    · rw [lookup_of_absent habsent] at hlookup
      cases hlookup
    · rw [lookup_of_leaf hpresent hleaf] at hlookup
      cases hlookup
      exact ⟨table, h, Nat.succ_pos level, rfl, hpresent, hleaf⟩
    · rw [lookup_of_links hlinks] at hlookup
      exact ih (.down h hlinks) hlookup

end Reaches

theorem lookup_congr
    (hsame : ∀ {level table}, Reaches F entry index top root (level + 1) table →
      entry' table (index (level + 1)) = entry table (index (level + 1))) :
    lookup F entry' index top root = lookup F entry index top root := by
  have hbelow : ∀ level table, Reaches F entry index top root level table →
      lookup F entry' index level table = lookup F entry index level table := by
    intro level
    induction level with
    | zero => exact fun _ _ => rfl
    | succ level ih =>
      intro table hreach
      have hentry := hsame hreach
      rcases entry_cases F (level + 1) (entry table (index (level + 1))) with
        habsent | ⟨hpresent, hleaf⟩ | hlinks
      · rw [lookup_of_absent habsent, lookup_of_absent]
        rw [hentry, habsent]
      · rw [lookup_of_leaf hpresent hleaf, lookup_of_leaf, hentry]
        · rw [hentry, hpresent]
        · rw [hentry, hleaf]
      · have hlinks' := hlinks
        rw [← hentry] at hlinks'
        rw [lookup_of_links hlinks, lookup_of_links hlinks', hentry]
        exact ih _ (.down hreach hlinks)
  exact hbelow top root .root

end WalkLemmas

/-! ## Labelled tables -/

/-- What is known about addresses. -/
@[ext] structure Labelling (ρ : Type) where
  kind : ℕ → Option ρ

namespace Labelling

variable {ρ : Type}

/-- Labellings are extended by labelling more addresses. -/
instance : Preorder (Labelling ρ) where
  le w w' := ∀ p r, w.kind p = some r → w'.kind p = some r
  le_refl _ _ _ h := h
  le_trans _ _ _ h₁ h₂ p r h := h₂ p r (h₁ p r h)

def assign (w : Labelling ρ) (p : ℕ) (r : ρ) : Labelling ρ :=
  ⟨fun q => if q = p then some r else w.kind q⟩

theorem kind_assign_self (w : Labelling ρ) (p : ℕ) (r : ρ) :
    (w.assign p r).kind p = some r :=
  if_pos rfl

theorem kind_assign_of_ne (w : Labelling ρ) {p q : ℕ} (r : ρ) (h : q ≠ p) :
    (w.assign p r).kind q = w.kind q :=
  if_neg h

theorem kind_assign_cases {w : Labelling ρ} {p q : ℕ} {r r' : ρ}
    (h : (w.assign p r).kind q = some r') :
    (q = p ∧ r' = r) ∨ (q ≠ p ∧ w.kind q = some r') := by
  by_cases heq : q = p
  · rw [heq, kind_assign_self] at h
    exact .inl ⟨heq, (Option.some.inj h).symm⟩
  · rw [kind_assign_of_ne w r heq] at h
    exact .inr ⟨heq, h⟩

theorem le_assign {w : Labelling ρ} {p : ℕ} (r : ρ) (h : w.kind p = none) :
    w ≤ w.assign p r := by
  intro q r' hq
  have hne : q ≠ p := by
    rintro rfl
    rw [h] at hq
    cases hq
  rw [kind_assign_of_ne w r hne, hq]

open Classical in
/-- The addresses in `A` have labels of their own, the others in `C` share
one. -/
noncomputable def split (A : ℕ → Prop) (a : ℕ → ρ) (C : ℕ → Prop) (c : ρ) :
    Labelling ρ where
  kind p := if A p then some (a p) else if C p then some c else none

section Split

variable {A C : ℕ → Prop} {a : ℕ → ρ} {c : ρ} {p : ℕ}

theorem kind_split_left (h : A p) : (split A a C c).kind p = some (a p) :=
  if_pos h

theorem kind_split_right (hA : ¬ A p) (hC : C p) :
    (split A a C c).kind p = some c :=
  (if_neg hA).trans (if_pos hC)

theorem kind_split_cases {r : ρ} (h : (split A a C c).kind p = some r) :
    (A p ∧ r = a p) ∨ (C p ∧ r = c) := by
  rw [split] at h
  dsimp only at h
  split at h
  · exact .inl ⟨‹_›, (Option.some.inj h).symm⟩
  · split at h
    · exact .inr ⟨‹_›, (Option.some.inj h).symm⟩
    · cases h

end Split

end Labelling

/-- What the label of a table says about its entries. -/
structure Rule (ρ E : Type) where
  holds : Labelling ρ → ρ → ℕ → E → Prop
  mono : ∀ {w w' r i e}, w ≤ w' → holds w r i e → holds w' r i e

/-- The labelled tables obey the rule in their first `size` entries. -/
def Labelled {ρ E : Type} (R : Rule ρ E) (size : ℕ) (w : Labelling ρ)
    (entry : ℕ → ℕ → E) : Prop :=
  ∀ p r i, w.kind p = some r → i < size → R.holds w r i (entry p i)

namespace Labelled

variable {ρ E : Type} {R : Rule ρ E} {size : ℕ} {w : Labelling ρ}
  {entry entry' : ℕ → ℕ → E}

theorem congr (h : Labelled R size w entry)
    (hsame : ∀ p r i, w.kind p = some r → i < size →
      entry' p i = entry p i) : Labelled R size w entry' := by
  intro p r i hp hi
  rw [hsame p r i hp hi]
  exact h p r i hp hi

theorem assign (h : Labelled R size w entry) {p : ℕ} {r : ρ}
    (hnone : w.kind p = none)
    (hnew : ∀ i, i < size → R.holds (w.assign p r) r i (entry p i)) :
    Labelled R size (w.assign p r) entry := by
  intro q r' i hq hi
  rcases Labelling.kind_assign_cases hq with ⟨rfl, rfl⟩ | ⟨-, hold⟩
  · exact hnew i hi
  · exact R.mono (Labelling.le_assign r hnone) (h q r' i hold hi)

/-- One entry of a labelled table is replaced by one that obeys the rule. -/
theorem put (h : Labelled R size w entry) {t i : ℕ}
    (hsame : ∀ p r j, w.kind p = some r → j < size → ¬ (p = t ∧ j = i) →
      entry' p j = entry p j)
    (hnew : ∀ r, w.kind t = some r → R.holds w r i (entry' t i)) :
    Labelled R size w entry' := by
  intro p r j hp hj
  by_cases heq : p = t ∧ j = i
  · obtain ⟨rfl, rfl⟩ := heq
    exact hnew r hp
  · rw [hsame p r j hp hj heq]
    exact h p r j hp hj

end Labelled

/-! ## Trees

A table is labelled with the place it has in the tree: the indices that lead
to it, the last one first, before the place of the root.  Since an address has
one label, no table is shared by two places. -/

section Trees

variable {E : Type} {F : Format E} {entry entry' : ℕ → ℕ → E}
  {index index' : ℕ → ℕ} {top root size : ℕ} {w : Labelling (List ℕ)}

/-- The indices of a key above a level. -/
def route (index : ℕ → ℕ) (top level : ℕ) : List ℕ :=
  (List.range' (level + 1) (top - level)).map index

theorem route_top (index : ℕ → ℕ) (top : ℕ) : route index top top = [] := by
  rw [route, Nat.sub_self]
  rfl

theorem route_of_lt (index : ℕ → ℕ) {top level : ℕ} (h : level < top) :
    route index top level =
      index (level + 1) :: route index top (level + 1) := by
  obtain ⟨n, hn⟩ : ∃ n, top - level = n + 1 := ⟨top - level - 1, by omega⟩
  have hrest : top - (level + 1) = n := by omega
  rw [route, route, hn, hrest, List.range'_succ]
  rfl

theorem length_route (index : ℕ → ℕ) (top level : ℕ) :
    (route index top level).length = top - level := by
  rw [route, List.length_map, List.length_range']

theorem route_eq_iff {top level : ℕ} :
    route index' top level = route index top level ↔
      ∀ k, level < k → k ≤ top → index' k = index k := by
  rw [route, route, List.map_inj_left]
  constructor
  · intro h k hlow hhigh
    exact h k (List.mem_range'_1.mpr (by omega))
  · intro h k hk
    rw [List.mem_range'_1] at hk
    exact h k (by omega) (by omega)

/-- A link leads to the place that the path to it and its index name. -/
def treeRule (F : Format E) (top : ℕ) : Rule (List ℕ) E where
  holds w path i e := path.length < top → F.Links (top - path.length) e →
    w.kind (F.next e) = some (i :: path)
  mono hle h hlen hlinks := hle _ _ (h hlen hlinks)

/-- The tables of a key are at the places it names, below the place of the
root. -/
theorem Reaches.kind_eq {level table : ℕ} {base : List ℕ}
    (h : Reaches F entry index top root level table)
    (hroot : w.kind root = some base)
    (hlabelled : Labelled (treeRule F (top + base.length)) size w entry)
    (hindex : ∀ k, index k < size) :
    w.kind table = some (route index top level ++ base) := by
  suffices hplace : level ≤ top ∧
      w.kind table = some (route index top level ++ base) from hplace.2
  refine h.invariant (I := fun level table => level ≤ top ∧
    w.kind table = some (route index top level ++ base)) ⟨le_rfl, ?_⟩ ?_
  · rw [hroot, route_top, List.nil_append]
  · rintro level table ⟨hle, hkind⟩ hlinks
    refine ⟨Nat.le_of_succ_le hle, ?_⟩
    have hlength : (route index top (level + 1) ++ base).length =
        top - (level + 1) + base.length := by
      rw [List.length_append, length_route]
    have hdepth : top + base.length -
        (route index top (level + 1) ++ base).length = level + 1 := by
      omega
    rw [route_of_lt index hle, List.cons_append]
    apply hlabelled _ _ _ hkind (hindex _)
    · omega
    · rw [hdepth]
      exact hlinks

section Put

-- An entry of one tree is replaced; the keys are looked up in a tree of the
-- same height, which may be another one.
variable {root' : ℕ} {base base' : List ℕ} {level t : ℕ}
  (hroot : w.kind root = some base) (hroot' : w.kind root' = some base')
  (hlabelled : Labelled (treeRule F (top + base.length)) size w entry)
  (hheight : base'.length = base.length) (hroots : base' = base → root' = root)
  (hindex : ∀ k, index k < size) (hindex' : ∀ k, index' k < size)
  (hreach : Reaches F entry index top root (level + 1) t)
  (hsame : ∀ p path j, w.kind p = some path → j < size →
    ¬ (p = t ∧ j = index (level + 1)) → entry' p j = entry p j)

/-- The key `index'` below `base'` passes through the entry of `index` below
`base` that is above `level`. -/
def Through (top : ℕ) (base base' : List ℕ) (index index' : ℕ → ℕ)
    (level : ℕ) : Prop :=
  base' = base ∧ ∀ k, level < k → k ≤ top → index' k = index k

include hroot hroot' hlabelled hheight hindex hindex' hreach hsame

/-- Replacing an entry does not change the lookup of a key that does not pass
through it. -/
theorem lookup_put_of_ne (hne : ¬ Through top base base' index index' level) :
    lookup F entry' index' top root' = lookup F entry index' top root' := by
  have hlabelled' :
      Labelled (treeRule F (top + base'.length)) size w entry := by
    rw [hheight]
    exact hlabelled
  apply lookup_congr
  intro level' table hreach'
  have hkind' := hreach'.kind_eq hroot' hlabelled' hindex'
  apply hsame _ _ _ hkind' (hindex' _)
  rintro ⟨rfl, hsameIndex⟩
  have hkind := hreach.kind_eq hroot hlabelled hindex
  rw [hkind] at hkind'
  have hplace := Option.some.inj hkind'
  -- the table is reached at one level only
  have hlevel : level' = level := by
    have hlength := congrArg List.length hplace
    rw [List.length_append, List.length_append, length_route,
      length_route] at hlength
    have hle := hreach.level_le
    have hle' := hreach'.level_le
    omega
  subst hlevel
  obtain ⟨hroute, hbase⟩ := List.append_inj hplace (by
    rw [length_route, length_route])
  apply hne
  refine ⟨hbase.symm, ?_⟩
  rw [← route_eq_iff, route_of_lt index' hreach.level_le,
    route_of_lt index hreach.level_le, hsameIndex, hroute]

variable (habsent : F.present (entry t (index (level + 1))) = false)

include hroots habsent

omit hroot' hheight hindex in
/-- A key that passes through the replaced entry found nothing before, and
now finds what the new entry leads to. -/
theorem lookup_put_of_eq (heq : Through top base base' index index' level) :
    lookup F entry index' top root' = none ∧
      lookup F entry' index' top root' =
        lookup F entry' index' (level + 1) t := by
  obtain ⟨hbase, hsameIndex⟩ := heq
  obtain rfl := hroots hbase
  have hreach' : Reaches F entry index' top root' (level + 1) t :=
    hreach.of_index fun k hk => hsameIndex k (Nat.lt_of_succ_lt hk)
  have hlast : index' (level + 1) = index (level + 1) :=
    hsameIndex _ (Nat.lt_succ_self level) hreach.level_le
  constructor
  · rw [hreach'.lookup_eq, lookup_of_absent]
    rw [hlast]
    exact habsent
  · apply Reaches.lookup_eq
    apply hreach'.mono
    intro k table hup hlinks
    apply hsame _ _ _ (hup.kind_eq hroot hlabelled hindex') (hindex' _)
    rintro ⟨rfl, hentry⟩
    rw [hentry, Format.Links, habsent] at hlinks
    exact Bool.false_ne_true hlinks.1

theorem lookup_link (hlevel : 0 < level)
    (hlinks : F.Links (level + 1) (entry' t (index (level + 1))))
    (hempty : ∀ j, j < size →
      F.present (entry' (F.next (entry' t (index (level + 1)))) j) = false) :
    lookup F entry' index' top root' = lookup F entry index' top root' := by
  by_cases hthrough : Through top base base' index index' level
  · obtain ⟨hbefore, hafter⟩ := lookup_put_of_eq hroot hlabelled
      hroots hindex' hreach hsame habsent hthrough
    have hlast : index' (level + 1) = index (level + 1) :=
      hthrough.2 _ (Nat.lt_succ_self level) hreach.level_le
    obtain ⟨k, rfl⟩ := Nat.exists_eq_add_of_le' hlevel
    rw [hbefore, hafter, lookup_of_links (by rwa [hlast]), hlast,
      lookup_of_absent (hempty _ (hindex' _))]
  · exact lookup_put_of_ne hroot hroot' hlabelled hheight hindex hindex'
      hreach hsame hthrough

/-- A leaf is found by the keys that pass through its entry, and changes no
other lookup. -/
theorem lookup_leaf (hpresent : F.present (entry' t (index (level + 1))) = true)
    (hleaf : F.leaf (level + 1) (entry' t (index (level + 1))) = true) :
    (Through top base base' index index' level →
      lookup F entry index' top root' = none ∧
        lookup F entry' index' top root' =
          some (level + 1, entry' t (index (level + 1)))) ∧
    (¬ Through top base base' index index' level →
      lookup F entry' index' top root' = lookup F entry index' top root') := by
  constructor
  · intro hthrough
    obtain ⟨hbefore, hafter⟩ := lookup_put_of_eq hroot hlabelled
      hroots hindex' hreach hsame habsent hthrough
    have hlast : index' (level + 1) = index (level + 1) :=
      hthrough.2 _ (Nat.lt_succ_self level) hreach.level_le
    refine ⟨hbefore, ?_⟩
    rw [hafter, lookup_of_leaf (by rwa [hlast]) (by rwa [hlast]), hlast]
  · exact lookup_put_of_ne hroot hroot' hlabelled hheight hindex hindex'
      hreach hsame

omit hroot' hheight hroots hindex' in
theorem reaches_link
    (hlinks : F.Links (level + 1) (entry' t (index (level + 1)))) :
    Reaches F entry' index top root level
      (F.next (entry' t (index (level + 1)))) := by
  refine Reaches.down ?_ hlinks
  apply hreach.mono
  intro k table hup hlink
  apply hsame _ _ _ (hup.kind_eq hroot hlabelled hindex) (hindex _)
  rintro ⟨rfl, hentry⟩
  rw [hentry, Format.Links, habsent] at hlink
  exact Bool.false_ne_true hlink.1

end Put

end Trees

end Radix
