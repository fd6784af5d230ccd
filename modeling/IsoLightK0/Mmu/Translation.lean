import IsoLightK0.Mmu.Layout
import IsoLightK0.Mmu.Permissions

/-!
# What mapping does to translations

The tables of an address space form a tree.  A table that is linked into it is
empty, so a call that fails on the way down, or finds its entry taken, has
changed no translation, although it may have left tables behind.  A leaf is
stored into an entry that was absent, and the addresses that pass through this
entry are those of the page.
-/

namespace IsoLightK0

open Bytes Triples Worlds Runs Radix PageTableFlags

/-- The physical address that an address is translated to, and the flags of
the leaf. -/
structure Translation where
  phys : ℕ
  flags : PageTableFlags
  deriving DecidableEq

def translateBy (va : BitVec 64) (leaf : ℕ × PageTableEntry) : Translation where
  phys := leaf.2.physAddr.toNat / leafSize leaf.1 * leafSize leaf.1 +
    va.toNat % leafSize leaf.1
  flags := leaf.2.flags

def translate (m : Mem) (pml4 : ℕ) (va : BitVec 64) : Option Translation :=
  (leafOf m pml4 va).map (translateBy va)

/-- The upper 17 bits of the address are the same. -/
def Canonical (va : BitVec 64) : Prop :=
  va.toNat < 2 ^ 47 ∨ 2 ^ 64 - 2 ^ 47 ≤ va.toNat

instance (va : BitVec 64) : Decidable (Canonical va) := by
  unfold Canonical
  infer_instance

/-! ### The walk in software -/

def smallPage (leaf : ℕ × PageTableEntry) : Option (BitVec 64) :=
  if leaf.1 = 1 then some leaf.2.physAddr else none

/-- A step of `walk_to_phys` above the lowest level follows links, and stops
at leaves. -/
theorem lookup_bind_smallPage (m : Mem) (va : BitVec 64) {level : ℕ}
    (hlow : 0 < level) (hhigh : level < 3) (t : ℕ) :
    (lookup x86Format (entryAt m) (tableIndex va) (level + 1) t).bind
        smallPage =
      (nextTable m t (tableIndex va (level + 1))).bind fun next =>
        (lookup x86Format (entryAt m) (tableIndex va) level next).bind
          smallPage := by
  have hleaf : x86Format.leaf (level + 1)
      (entryAt m t (tableIndex va (level + 1))) =
      (entryAt m t (tableIndex va (level + 1))).flags.contains hugePage := by
    rw [hugePage, PageTableEntry.flags_contains_bit _ (by omega) (by omega)]
    show (decide (level + 1 = 1) || (decide (level + 1 < 4) && _)) = _
    rw [decide_eq_false (by omega), decide_eq_true (by omega), Bool.true_and,
      Bool.false_or]
  have hpresent : x86Format.present
      (entryAt m t (tableIndex va (level + 1))) =
      (entryAt m t (tableIndex va (level + 1))).isPresent :=
    (PageTableEntry.isPresent_eq _).symm
  unfold nextTable
  dsimp only
  rcases entry_cases x86Format (level + 1)
    (entryAt m t (tableIndex va (level + 1))) with
    habsent | ⟨hpres, hlast⟩ | hlinks
  · rw [lookup_of_absent habsent, ← hpresent, habsent]
    rfl
  · rw [lookup_of_leaf hpres hlast, ← hleaf, hlast, if_pos (.inr rfl)]
    exact if_neg (by omega)
  · rw [lookup_of_links hlinks, ← hpresent, ← hleaf, hlinks.1, hlinks.2]
    rfl

/-- `walk_to_phys` returns the base of a page of 4 KiB. -/
theorem walkToPhys_eq_leafOf (m : Mem) (pml4 : ℕ) (va : BitVec 64) :
    walkToPhys m pml4 va = (leafOf m pml4 va).bind smallPage := by
  have hlast : ∀ pt, (lookup x86Format (entryAt m) (tableIndex va) 1 pt).bind
      smallPage = if ¬ (entryAt m pt (tableIndex va 1)).isPresent then none
        else some (entryAt m pt (tableIndex va 1)).physAddr := by
    intro pt
    rw [PageTableEntry.isPresent_eq]
    cases hpresent : (entryAt m pt (tableIndex va 1)).word.getLsbD 0 with
    | false =>
      rw [lookup_of_absent hpresent]
      rfl
    | true =>
      rw [lookup_of_leaf hpresent rfl]
      rfl
  unfold walkToPhys leafOf
  dsimp only
  rw [PageTableEntry.isPresent_eq]
  cases hpresent : (entryAt m pml4 (tableIndex va 4)).word.getLsbD 0 with
  | false =>
    rw [lookup_of_absent hpresent]
    rfl
  | true =>
    rw [lookup_of_links ⟨hpresent, rfl⟩,
      lookup_bind_smallPage m va (by omega) (by omega),
      if_neg (not_not.mpr rfl)]
    congr 1
    funext pd
    rw [lookup_bind_smallPage m va (by omega) (by omega)]
    congr 1
    funext pt
    rw [hlast]

/-- The tables below `pml4` form a tree, and are aligned and in use. -/
def TreeAt (pml4 : ℕ) (w : Labelling (List ℕ)) (s : Physical) : Prop :=
  Layout (treeRule x86Format 4) w s ∧ w.kind pml4 = some []

theorem treeRule_unused (w : Labelling (List ℕ)) (path : List ℕ) (i : ℕ) :
    (treeRule x86Format 4).holds w path i .unused := by
  intro _ hlinks
  rw [Format.Links, not_present_unused] at hlinks
  exact absurd hlinks.1 Bool.false_ne_true

theorem treeRule_leaf {w : Labelling (List ℕ)} {path : List ℕ} {i : ℕ}
    {e : PageTableEntry} (hleaf : x86Format.leaf (4 - path.length) e = true) :
    (treeRule x86Format 4).holds w path i e := by
  intro _ hlinks
  rw [Format.Links, hleaf] at hlinks
  cases hlinks.2

section Lookups

variable {pml4 : ℕ} {w : Labelling (List ℕ)} {s : Physical} {va : BitVec 64}
  {level t : ℕ}

def ReachesIn (s : Physical) (pml4 : ℕ) (va : BitVec 64) (level t : ℕ) :
    Prop :=
  Reaches x86Format (entryAt s.mem) (tableIndex va) 4 pml4 level t

theorem TreeAt.kind_eq (h : TreeAt pml4 w s)
    (hreach : ReachesIn s pml4 va level t) :
    w.kind t = some (route (tableIndex va) 4 level) := by
  have hkind := hreach.kind_eq h.2 h.1.labelled (tableIndex_lt va)
  rw [List.append_nil] at hkind
  exact hkind

/-- The addresses agree in their indices from `level` up. -/
def SameIndices (va va' : BitVec 64) (level : ℕ) : Prop :=
  ∀ k, level ≤ k → k ≤ 4 → tableIndex va' k = tableIndex va k

theorem through_iff_sameIndices (va va' : BitVec 64) (level : ℕ) :
    Through 4 [] [] (tableIndex va) (tableIndex va') level ↔
      SameIndices va va' (level + 1) :=
  ⟨fun h k hlow => h.2 k hlow, fun h => ⟨rfl, fun k hlow => h k hlow⟩⟩

end Lookups

/-! ## Walking down -/

section WalkDown

variable {pml4 : ℕ} {leaves : BitVec 64 → Option (ℕ × PageTableEntry)}
  {va : BitVec 64}

/-- The tables form a tree in which the lookups give `leaves`. -/
def TreeWith (pml4 : ℕ) (leaves : BitVec 64 → Option (ℕ × PageTableEntry))
    (w : Labelling (List ℕ)) (s : Physical) : Prop :=
  TreeAt pml4 w s ∧ ∀ va, leafOf s.mem pml4 va = leaves va

theorem treeRule_descends (path : List ℕ) (hlen : path.length < 3) (i : ℕ) :
    Descends (treeRule x86Format 4) path i (i :: path) where
  follow h hpresent hhuge :=
    h (by omega) (links_of_present (by omega) hpresent hhuge)
  link hkind haligned hbound _ _ := by
    rw [(links_encode_mid Nat.one_lt_two haligned hbound).2]
    exact hkind
  empty j := treeRule_unused _ _ j

variable {w : Labelling (List ℕ)} {s : Physical} {level : ℕ}

/-- A new table is empty, so that nothing is found through it. -/
theorem TreeAt.link {s' : Physical} {t p : ℕ} (h : TreeAt pml4 w s)
    (hlevel : 0 < level) (hreach : ReachesIn s pml4 va (level + 1) t)
    (htake : TakesFrame s p s')
    (habsent : (entryAt s.mem t (tableIndex va (level + 1))).isPresent = false) :
    let m := storeEntry s'.mem t (tableIndex va (level + 1))
      (.encode (BitVec.ofNat 64 p) mid)
    (∀ va', leafOf m pml4 va' = leafOf s.mem pml4 va') ∧
      ReachesIn { s' with mem := m } pml4 va level p := by
  intro m
  have hindex := tableIndex_lt va (level + 1)
  have ht := h.kind_eq hreach
  have haligned := h.1.aligned ht
  have hne : p ≠ t := by
    rintro rfl
    exact h.1.reserved ht htake.free
  obtain ⟨hlinks, hnext⟩ := links_encode_mid (Nat.succ_lt_succ hlevel)
    htake.free.1 htake.bound
  have hentry : entryAt m t (tableIndex va (level + 1)) =
      .encode (BitVec.ofNat 64 p) mid := entryAt_storeEntry_same ..
  have hsame : ∀ q path j, w.kind q = some path → j < tableEntries →
      ¬ (q = t ∧ j = tableIndex va (level + 1)) →
        entryAt m q j = entryAt s.mem q j := by
    intro q path j hq hj hother
    rw [← h.1.entry_takes htake hq hj]
    exact entryAt_storeEntry_of_ne _ _ haligned (h.1.aligned hq) hindex hj
      hother
  have hempty : ∀ j, j < tableEntries →
      x86Format.present (entryAt m p j) = false := by
    intro j hj
    rw [entryAt_storeEntry_of_ne _ _ haligned htake.free.1 hindex hj
      (fun hboth => hne hboth.1), entryAt_erased hj htake.erased]
    exact not_present_unused
  rw [PageTableEntry.isPresent_eq] at habsent
  rw [← hentry] at hlinks hnext
  constructor
  · intro va'
    refine lookup_link h.2 h.2 h.1.labelled rfl (fun _ => rfl)
      (tableIndex_lt va) (tableIndex_lt va') hreach hsame habsent hlevel
      hlinks ?_
    rw [hnext]
    exact hempty
  · have hdown := reaches_link h.2 h.1.labelled (tableIndex_lt va) hreach
      hsame habsent hlinks
    rw [hnext] at hdown
    exact hdown

theorem allocOrGetTable_treeWith (hlevel : 0 < level) (t : ℕ) :
    Evolves (TreeWith pml4 leaves) False
      (fun _ s => ReachesIn s pml4 va (level + 1) t)
      (allocOrGetTable t (tableIndex va (level + 1)))
      (fun next _ s => ReachesIn s pml4 va level next) := by
  rintro w s ⟨htree, hleaves⟩ hreach
  have ht := htree.kind_eq hreach
  have hle := hreach.level_le
  rcases allocOrGetTable_cases s t (tableIndex va (level + 1)) with
    ⟨e, heval, -⟩ | ⟨hpresent, hhuge, heval⟩ | ⟨habsent, p, s', htake, heval⟩
  · rw [heval]
    exact ⟨w, le_rfl, ⟨htree, hleaves⟩, fun _ h => (nomatch h), False.elim⟩
  · rw [heval]
    refine ⟨w, le_rfl, ⟨htree, hleaves⟩, ?_, False.elim⟩
    rintro _ ⟨⟩
    exact hreach.down (links_of_present (by omega) hpresent hhuge)
  · obtain ⟨hsame, hreach'⟩ := htree.link hlevel hreach htake habsent
    have hdown := treeRule_descends (route (tableIndex va) 4 (level + 1))
      (by rw [length_route]; omega) (tableIndex va (level + 1))
    have hle' := Labelling.le_assign (tableIndex va (level + 1) ::
      route (tableIndex va) 4 (level + 1)) (htree.1.kind_eq_none htake.free)
    rw [heval]
    refine ⟨_, hle', ⟨⟨?_, hle' _ _ htree.2⟩, ?_⟩, ?_, False.elim⟩
    · exact (htree.1.takes_assign htake hdown.empty).store (hle' _ _ ht)
        (tableIndex_lt va _) (hdown.link (w.kind_assign_self p _)
          htake.free.1 htake.bound)
    · intro va'
      rw [← hleaves va']
      exact hsame va'
    · rintro _ ⟨⟩
      exact hreach'

theorem walkDown_treeWith {bottom : ℕ} (hbottom : 0 < bottom) (steps t : ℕ) :
    Evolves (TreeWith pml4 leaves) False
      (fun _ s => ReachesIn s pml4 va (bottom + steps) t)
      (walkDown va bottom steps t)
      (fun next _ s => ReachesIn s pml4 va bottom next) := by
  induction steps generalizing t with
  | zero => exact Evolves.pure t fun _ _ h => h
  | succ steps ih =>
    exact Evolves.bind
      (allocOrGetTable_treeWith (Nat.add_pos_left hbottom steps) t)
      fun next => ih next

/-- The addresses with the indices of `va` have gained a leaf, and no others
have changed. -/
def Gains (pml4 : ℕ) (va : BitVec 64) (level : ℕ) (e : PageTableEntry)
    (m m' : Mem) : Prop :=
  ∀ va', (SameIndices va va' level → leafOf m pml4 va' = none ∧
      leafOf m' pml4 va' = some (level, e)) ∧
    (¬ SameIndices va va' level → leafOf m' pml4 va' = leafOf m pml4 va')

theorem TreeAt.storeLeaf {t : ℕ} {e : PageTableEntry} (h : TreeAt pml4 w s)
    (hlevel : 0 < level) (hreach : ReachesIn s pml4 va level t)
    (habsent : (entryAt s.mem t (tableIndex va level)).isPresent = false)
    (hpresent : x86Format.present e = true)
    (hleaf : x86Format.leaf level e = true) :
    let m := storeEntry s.mem t (tableIndex va level) e
    TreeAt pml4 w { s with mem := m } ∧ Gains pml4 va level e s.mem m := by
  intro m
  obtain ⟨level, rfl⟩ := Nat.exists_eq_add_of_le' hlevel
  have hindex := tableIndex_lt va (level + 1)
  have ht := h.kind_eq hreach
  have hentry : entryAt m t (tableIndex va (level + 1)) = e :=
    entryAt_storeEntry_same ..
  constructor
  · refine ⟨h.1.store ht hindex (treeRule_leaf ?_), h.2⟩
    have hle := hreach.level_le
    rw [length_route, Nat.sub_sub_self hle]
    exact hleaf
  · intro va'
    have hsame : ∀ q path j, w.kind q = some path → j < tableEntries →
        ¬ (q = t ∧ j = tableIndex va (level + 1)) →
          entryAt m q j = entryAt s.mem q j :=
      fun q _ j hq hj hother => entryAt_storeEntry_of_ne _ _ (h.1.aligned ht)
        (h.1.aligned hq) hindex hj hother
    rw [PageTableEntry.isPresent_eq] at habsent
    rw [← hentry] at hpresent hleaf
    obtain ⟨hthrough, hother⟩ := lookup_leaf h.2 h.2 h.1.labelled rfl
      (fun _ => rfl) (tableIndex_lt va) (tableIndex_lt va') hreach hsame
      habsent hpresent hleaf
    rw [through_iff_sameIndices, hentry] at hthrough
    rw [through_iff_sameIndices] at hother
    exact ⟨hthrough, hother⟩

end WalkDown

/-- Canonical addresses with the same indices lie in the same page. -/
theorem sameIndices_iff {va va' : BitVec 64} (hva : Canonical va)
    (hva' : Canonical va') {level : ℕ} (hlevel : level = 1 ∨ level = 2) :
    SameIndices va va' level ↔
      va'.toNat / leafSize level = va.toNat / leafSize level := by
  unfold Canonical at hva hva'
  unfold SameIndices leafSize
  simp only [tableIndex_eq]
  rcases hlevel with rfl | rfl
  · constructor
    · intro h
      have h₁ := h 1 (by omega) (by omega)
      have h₂ := h 2 (by omega) (by omega)
      have h₃ := h 3 (by omega) (by omega)
      have h₄ := h 4 (by omega) (by omega)
      omega
    · intro h k hlow hhigh
      obtain rfl | rfl | rfl | rfl : k = 1 ∨ k = 2 ∨ k = 3 ∨ k = 4 := by omega
      · omega
      · omega
      · omega
      · omega
  · constructor
    · intro h
      have h₂ := h 2 (by omega) (by omega)
      have h₃ := h 3 (by omega) (by omega)
      have h₄ := h 4 (by omega) (by omega)
      omega
    · intro h k hlow hhigh
      obtain rfl | rfl | rfl : k = 2 ∨ k = 3 ∨ k = 4 := by omega
      · omega
      · omega
      · omega

namespace SpaceCall

def leafFlags : SpaceCall → PageTableFlags
  | small call => PageTableEntry.storedFlags (call.flags.union present)
  | large _ _ flags =>
    PageTableEntry.storedFlags ((flags.union present).union hugePage)

def Covers (call : SpaceCall) (va : BitVec 64) : Prop :=
  call.virtAddr.toNat ≤ va.toNat ∧
    va.toNat < call.virtAddr.toNat + leafSize call.level

def translation (call : SpaceCall) (va : BitVec 64) : Translation where
  phys := call.physAddr.toNat + (va.toNat - call.virtAddr.toNat)
  flags := call.leafFlags

end SpaceCall

/-- The flags that the constants of `PageTableFlags` can make up. -/
def PageTableFlags.Named (flags : PageTableFlags) : Prop :=
  flags.bits &&& ~~~0x8000_0000_0000_01FF#64 = 0#64

/-- A canonical address, a physical address that an entry can hold, and flags
made from the constants. -/
structure SpaceCall.Admissible (call : SpaceCall) : Prop where
  canonical : Canonical call.virtAddr
  phys_lt : call.physAddr.toNat < 2 ^ 52
  named : call.flags.Named

def spaceStep (pml4 : ℕ) (s : Physical) (call : SpaceCall) :
    Option (Except MmuError Unit × Physical) :=
  some ((call.program pml4).eval s)

section Calls

variable {pml4 : ℕ} {w : Labelling (List ℕ)} {s : Physical}

/-- The outcomes of a call: the tables still form a tree, and it fails and
changes no translation, or maps an aligned page. -/
def CallOutcome (pml4 : ℕ) (call : SpaceCall) (s : Physical)
    (outcome : Except MmuError Unit × Physical) : Prop :=
  (∃ w, TreeAt pml4 w outcome.2) ∧
    ((∃ e, outcome.1 = .error e ∧ ∀ va,
        leafOf outcome.2.mem pml4 va = leafOf s.mem pml4 va) ∨
      (outcome.1 = .ok () ∧ call.virtAddr.toNat % leafSize call.level = 0 ∧
        call.physAddr.toNat % leafSize call.level = 0 ∧
        Gains pml4 call.virtAddr call.level call.leaf s.mem outcome.2.mem))

theorem SpaceCall.outcome (call : SpaceCall) (h : TreeAt pml4 w s) :
    CallOutcome pml4 call s ((call.program pml4).eval s) := by
  rcases call.eval_program pml4 s with ⟨e, heval⟩ | ⟨hvirt, hphys, heval⟩
  · rw [heval]
    exact ⟨⟨w, h⟩, .inl ⟨e, rfl, fun _ => rfl⟩⟩
  obtain ⟨hlow, hlevel⟩ := call.level_bounds
  have hroot : ReachesIn s pml4 call.virtAddr (call.level + (4 - call.level))
      pml4 := by
    rw [hlevel]
    exact .root
  obtain ⟨w', -, ⟨htree, hleaves⟩, hreach, -⟩ := walkDown_treeWith hlow
    (4 - call.level) pml4 w s ⟨h, fun _ => rfl⟩ hroot
  rw [heval, mapLeaf, Prog.eval_bind]
  rcases hwalk : (walkDown call.virtAddr call.level (4 - call.level) pml4).eval
    s with ⟨e | t, s₁⟩
  · rw [hwalk] at htree hleaves
    exact ⟨⟨w', htree⟩, .inl ⟨e, rfl, hleaves⟩⟩
  · rw [hwalk] at htree hleaves hreach
    dsimp only at htree hleaves hreach ⊢
    rcases putLeaf_cases s₁ t (tableIndex call.virtAddr call.level)
      (.ok call.leaf) with ⟨e, heval, -⟩ | ⟨habsent, _, ⟨⟩, heval⟩
    · rw [heval]
      exact ⟨⟨w', htree⟩, .inl ⟨e, rfl, hleaves⟩⟩
    · obtain ⟨htree', hgains⟩ := htree.storeLeaf hlow (hreach t rfl) habsent
        call.leaf_isLeaf.1 call.leaf_isLeaf.2
      rw [heval]
      refine ⟨⟨w', htree'⟩, .inr ⟨rfl, hvirt, hphys, fun va' => ?_⟩⟩
      rw [← hleaves va']
      exact hgains va'

end Calls

/-! ## Addresses of the page -/

variable {flags : PageTableFlags}

/-- Flags made from the constants leave the address field alone. -/
theorem PageTableFlags.Named.clear (h : flags.Named) :
    flags.bits &&& physAddrMask = 0#64 := by
  have hmask : physAddrMask = ~~~0x8000_0000_0000_01FF#64 &&& physAddrMask := by
    decide
  rw [hmask, ← BitVec.and_assoc, h, BitVec.zero_and]

theorem PageTableFlags.clear_union {k : ℕ}
    (h : flags.bits &&& physAddrMask = 0#64)
    (hk : (bit k).bits &&& physAddrMask = 0#64) :
    (flags.union (bit k)).bits &&& physAddrMask = 0#64 := by
  show (flags.bits ||| (bit k).bits) &&& physAddrMask = 0#64
  rw [BitVec.and_or_distrib_right, h, hk, BitVec.or_zero]

theorem clear_storedFlags (h : flags.bits &&& physAddrMask = 0#64) :
    (PageTableEntry.storedFlags flags).bits &&& physAddrMask = 0#64 := by
  unfold PageTableEntry.storedFlags
  split
  · exact clear_union h (by decide)
  · exact h

theorem read_stored {p : ℕ} {mask : BitVec 64}
    (hp : (BitVec.ofNat 64 p &&& mask) = BitVec.ofNat 64 p)
    (hmask : mask &&& physAddrMask = mask) (hbound : p < 2 ^ 52)
    (hclear : flags.bits &&& physAddrMask = 0#64) : let e : PageTableEntry :=
      ⟨(BitVec.ofNat 64 p &&& mask) ||| flags.bits⟩
    e.physAddr.toNat = p ∧ e.flags = flags := by
  intro e
  have hfield : (BitVec.ofNat 64 p &&& mask) &&& physAddrMask =
      BitVec.ofNat 64 p := by
    rw [BitVec.and_assoc, hmask, hp]
  constructor
  · have haddr : e.physAddr = BitVec.ofNat 64 p := by
      show ((BitVec.ofNat 64 p &&& mask) ||| flags.bits) &&& physAddrMask = _
      rw [BitVec.and_or_distrib_right, hfield, hclear, BitVec.or_zero]
    rw [haddr, BitVec.toNat_ofNat, Nat.mod_eq_of_lt (by omega)]
  · have hbits : ((BitVec.ofNat 64 p &&& mask) ||| flags.bits) &&&
        ~~~physAddrMask = flags.bits := by
      apply BitVec.eq_of_getLsbD_eq
      intro k hk
      have haddr := congrArg (fun x => BitVec.getLsbD x k) hmask
      have hflag := congrArg (fun x => BitVec.getLsbD x k) hclear
      simp only [BitVec.getLsbD_and] at haddr hflag
      rw [BitVec.getLsbD_and, BitVec.getLsbD_or, BitVec.getLsbD_and,
        BitVec.getLsbD_not, decide_eq_true hk, Bool.true_and]
      cases hfieldBit : physAddrMask.getLsbD k with
      | false =>
        rw [hfieldBit, Bool.and_false] at haddr
        rw [← haddr]
        simp
      | true =>
        rw [hfieldBit, Bool.and_true] at hflag
        simpa using hflag
    exact congrArg PageTableFlags.mk hbits

namespace SpaceCall

variable {call : SpaceCall}

theorem leafSize_cases (call : SpaceCall) :
    leafSize call.level = 4096 ∨ leafSize call.level = 2097152 := by
  rcases call.level_cases with hlevel | hlevel
  · exact .inl (hlevel ▸ leafSize_one)
  · exact .inr (hlevel ▸ leafSize_two)

theorem Admissible.leaf_eq (h : call.Admissible)
    (haligned : call.physAddr.toNat % leafSize call.level = 0) :
    call.leaf.physAddr.toNat = call.physAddr.toNat ∧
      call.leaf.flags = call.leafFlags := by
  have hclear := clear_storedFlags
    (clear_union h.named.clear (by decide : (bit 0).bits &&& physAddrMask = 0#64))
  have hbound := h.phys_lt
  have hpa : BitVec.ofNat 64 call.physAddr.toNat = call.physAddr :=
    BitVec.ofNat_toNat ..
  cases call with
  | small call =>
    have hmask := and_physAddrMask_of_aligned haligned hbound
    have hread := read_stored hmask (BitVec.and_self ..) hbound hclear
    rw [hpa] at hread
    exact hread
  | large va pa flags =>
    have hclear' := clear_storedFlags (clear_union
      (clear_union h.named.clear (by decide : (bit 0).bits &&& physAddrMask =
        0#64)) (by decide : (bit 7).bits &&& physAddrMask = 0#64))
    have hbits : ∀ k : Fin 64, hugePhysMask.getLsbD k =
        decide (21 ≤ k.val ∧ k.val < 52) := by decide
    have hmask := and_mask_of_aligned (n := 21)
      (fun k hk => hbits ⟨k, hk⟩) haligned hbound
    have hread := read_stored hmask (by decide) hbound hclear'
    rw [hpa] at hread
    exact hread

theorem covers_iff (hcanonical : Canonical call.virtAddr)
    (haligned : call.virtAddr.toNat % leafSize call.level = 0)
    {va : BitVec 64} (hva : Canonical va) :
    SameIndices call.virtAddr va call.level ↔ call.Covers va := by
  rw [sameIndices_iff hcanonical hva call.level_cases]
  unfold Covers
  rcases call.leafSize_cases with hsize | hsize
  · rw [hsize] at haligned ⊢
    omega
  · rw [hsize] at haligned ⊢
    omega

theorem Admissible.translateBy_leaf (h : call.Admissible)
    (hvirt : call.virtAddr.toNat % leafSize call.level = 0)
    (hphys : call.physAddr.toNat % leafSize call.level = 0)
    {va : BitVec 64} (hcovers : call.Covers va) :
    translateBy va (call.level, call.leaf) = call.translation va := by
  obtain ⟨haddr, hflags⟩ := h.leaf_eq hphys
  unfold translateBy translation
  rw [haddr, hflags]
  have hoffset : va.toNat % leafSize call.level =
      va.toNat - call.virtAddr.toNat := by
    unfold Covers at hcovers
    rcases call.leafSize_cases with hsize | hsize
    · rw [hsize] at hvirt hcovers ⊢
      omega
    · rw [hsize] at hvirt hcovers ⊢
      omega
  rw [hoffset, Nat.div_mul_cancel (Nat.dvd_of_mod_eq_zero hphys)]

end SpaceCall

/-- What a call does to the translations from `m` to `m'`. -/
structure MapEffect (pml4 : ℕ) (call : SpaceCall) (r : Except MmuError Unit)
    (m m' : Mem) : Prop where
  failed : ∀ e, r = .error e → ∀ va,
    translate m' pml4 va = translate m pml4 va
  mapped : r = .ok () → ∀ va, Canonical va → call.Covers va →
    translate m' pml4 va = some (call.translation va)
  kept : r = .ok () → ∀ va, Canonical va → ¬ call.Covers va →
    translate m' pml4 va = translate m pml4 va
  walked : r = .ok () → call.level = 1 → ∀ va, Canonical va →
    call.Covers va → walkToPhys m' pml4 va = some call.physAddr
  agrees : ∀ va p, walkToPhys m' pml4 va = some p →
    ∃ flags, translate m' pml4 va = some ⟨p.toNat + va.toNat % 4096, flags⟩

theorem translate_of_walkToPhys {m : Mem} {pml4 : ℕ} {va p : BitVec 64}
    (h : walkToPhys m pml4 va = some p) :
    ∃ flags, translate m pml4 va = some ⟨p.toNat + va.toNat % 4096, flags⟩ := by
  rw [walkToPhys_eq_leafOf] at h
  obtain ⟨⟨level, e⟩, hleaf, hsmall⟩ := Option.bind_eq_some_iff.mp h
  by_cases hlevel : level = 1
  · obtain rfl := hlevel
    have hp : e.physAddr = p := by
      rw [smallPage, if_pos rfl] at hsmall
      exact Option.some.inj hsmall
    have haligned : e.physAddr.toNat % 4096 = 0 := e.physAddr_aligned
    refine ⟨e.flags, ?_⟩
    rw [translate, hleaf, Option.map_some, translateBy, ← hp]
    dsimp only
    rw [leafSize_one, Nat.div_mul_cancel (Nat.dvd_of_mod_eq_zero haligned)]
  · rw [smallPage, if_neg hlevel] at hsmall
    cases hsmall

theorem CallOutcome.mapEffect {pml4 : ℕ} {call : SpaceCall} {s : Physical}
    {outcome : Except MmuError Unit × Physical}
    (h : CallOutcome pml4 call s outcome) (hcall : call.Admissible) :
    MapEffect pml4 call outcome.1 s.mem outcome.2.mem := by
  obtain ⟨-, ⟨e, herror, hsame⟩ | ⟨hok, hvirt, hphys, hgains⟩⟩ := h
  · have hno : outcome.1 ≠ .ok () := by
      rw [herror]
      exact nofun
    refine ⟨fun _ _ va => ?_, fun h => absurd h hno, fun h => absurd h hno,
      fun h => absurd h hno, fun _ _ => translate_of_walkToPhys⟩
    rw [translate, translate, hsame va]
  · have hleaf : ∀ va, Canonical va → call.Covers va →
        leafOf outcome.2.mem pml4 va = some (call.level, call.leaf) := by
      intro va hva hcovers
      have hsame := (SpaceCall.covers_iff hcall.canonical hvirt hva).mpr hcovers
      exact ((hgains va).1 hsame).2
    refine ⟨fun e he => ?_, fun _ va hva hcovers => ?_,
      fun _ va hva hout => ?_, fun _ hlevel va hva hcovers => ?_,
      fun _ _ => translate_of_walkToPhys⟩
    · rw [hok] at he
      cases he
    · rw [translate, hleaf va hva hcovers, Option.map_some,
        hcall.translateBy_leaf hvirt hphys hcovers]
    · have hne := mt (SpaceCall.covers_iff hcall.canonical hvirt hva).mp hout
      rw [translate, translate, (hgains va).2 hne]
    · have haddr := (hcall.leaf_eq hphys).1
      rw [walkToPhys_eq_leafOf, hleaf va hva hcovers, Option.bind_some,
        smallPage, if_pos hlevel, BitVec.eq_of_toNat_eq haddr]

/-- After any run of calls on an address space whose tables form a tree, the
next call changes the translations of its own page only, and those only if it
succeeds. -/
theorem map_run_translations {pml4 : ℕ} {w₀ : Labelling (List ℕ)}
    {s₀ s : Physical} (htree : TreeAt pml4 w₀ s₀)
    {history : List (SpaceCall × Except MmuError Unit)}
    (hrun : Run (spaceStep pml4) s₀ history s) {call : SpaceCall}
    (hcall : call.Admissible) {r : Except MmuError Unit} {s' : Physical}
    (hstep : spaceStep pml4 s call = some (r, s')) :
    MapEffect pml4 call r s.mem s'.mem := by
  have hinv : ∃ w, TreeAt pml4 w s := by
    refine hrun.invariant (I := fun s => ∃ w, TreeAt pml4 w s) ⟨w₀, htree⟩ ?_
    rintro s call r s' ⟨w, hw⟩ hnext
    have houtcome := (call.outcome hw).1
    rw [Option.some.inj hnext] at houtcome
    exact houtcome
  obtain ⟨w, hw⟩ := hinv
  have heffect := (call.outcome hw).mapEffect hcall
  rw [Option.some.inj hstep] at heffect
  exact heffect

/-- The places of the tables. -/
def World.places (w : World) : Labelling (List ℕ) where
  kind p := match w.role p with
    | some (.table path) => some path
    | _ => none

theorem World.kind_places {w : World} {p : ℕ} {path : List ℕ} :
    w.places.kind p = some path ↔ w.role p = some (.table path) := by
  unfold places
  dsimp only
  rcases w.role p with - | path' | -
  · simp
  · simp
  · simp

/-- The tree of an address space with its roles is a radix tree. -/
theorem Space.treeAt {confined : Prop} {root : ℕ} {w : World} {s : Physical}
    (h : Space tableEntries confined root w s) : TreeAt root w.places s := by
  refine ⟨⟨fun hp => (h.used (World.kind_places.mp hp)).1,
    fun hp => (h.used (World.kind_places.mp hp)).2, ?_⟩,
    World.kind_places.mpr (h.root_iff.mpr rfl)⟩
  intro t path i ht hi hlen hlinks
  have hupper : path.length < 3 := by
    by_contra hlast
    have hlevel : 4 - path.length = 1 := by omega
    rw [hlevel] at hlinks
    cases hlinks.2
  refine World.kind_places.mpr (h.child (World.kind_places.mp ht) hupper
    ⟨hi, fun _ => hi⟩ ?_).2
  rw [PageTableEntry.isPresent_eq]
  exact hlinks.1

theorem NewSpace.treeAt (S : NewSpace) :
    TreeAt S.pml4 S.world.places S.state :=
  S.space_world.treeAt

/-- A page of 2 MiB, next to the page that is mapped afterwards. -/
def largeCall : SpaceCall := .large 0x200000 0x800000 mid

theorem map_run_translations_two_sizes :
    ∃ s s', Run (spaceStep emptySpace.pml4) emptySpace.state
        [(largeCall, .ok ())] s ∧
      spaceStep emptySpace.pml4 s (.small dataPageCall) = some (.ok (), s') ∧
      MapEffect emptySpace.pml4 (.small dataPageCall) (.ok ()) s.mem s'.mem ∧
      translate s'.mem emptySpace.pml4 0x400010 = some ⟨0x600010, mid⟩ := by
  let s := ((largeCall.program emptySpace.pml4).eval emptySpace.state).2
  have hrun : Run (spaceStep emptySpace.pml4) emptySpace.state
      [(largeCall, .ok ())] s := Run.next Run.start rfl
  have hcall : (SpaceCall.small dataPageCall).Admissible :=
    ⟨by decide, by decide, by unfold PageTableFlags.Named; decide⟩
  have hok : ((dataPageCall.program emptySpace.pml4).eval s).1 = .ok () := by
    decide +kernel
  have hstep : spaceStep emptySpace.pml4 s (.small dataPageCall) =
      some (.ok (), ((dataPageCall.program emptySpace.pml4).eval s).2) :=
    congrArg some (Prod.ext hok rfl)
  have heffect := map_run_translations emptySpace.treeAt hrun hcall hstep
  refine ⟨s, _, hrun, hstep, heffect, ?_⟩
  rw [heffect.mapped rfl 0x400010 (by decide) (by
    unfold SpaceCall.Covers
    decide)]
  decide

end IsoLightK0
