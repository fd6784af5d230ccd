import IsoLightK0.Mmu.Layout
import IsoLightK0.Mmu.Permissions

/-!
# No leaf is writable and executable

The policy is enforced when an entry is stored, and address spaces share the
tables below their upper halves.  So it is an invariant of all tables at once:
each table has a level, links lead one level down, and the leaves in every
table obey the policy.
-/

namespace IsoLightK0

open Bytes Triples Worlds Runs Radix PageTableFlags

/-- A table is labelled with its level, and its leaves are in `P`; a frame with
the label 0 is no table. -/
def levelRule (P : PageTableEntry → Prop) : Rule ℕ PageTableEntry where
  holds w level _ e := 0 < level → x86Format.present e = true →
    (x86Format.leaf level e = true → P e) ∧
      (x86Format.leaf level e = false →
        w.kind (x86Format.next e) = some (level - 1))
  mono hle h hlevel hpresent := ⟨(h hlevel hpresent).1,
    fun hleaf => hle _ _ ((h hlevel hpresent).2 hleaf)⟩

section Levels

variable {P : PageTableEntry → Prop} {w : Labelling ℕ} {s : Physical}
  {pml4 : ℕ} {va : BitVec 64}

theorem levelRule_unused (level i : ℕ) :
    (levelRule P).holds w level i .unused := by
  intro _ hpresent
  rw [not_present_unused] at hpresent
  cases hpresent

theorem levelRule_descends {level : ℕ} (hlevel : 0 < level) (i : ℕ) :
    Descends (levelRule P) (level + 1) i level where
  follow h hpresent hhuge := by
    have hlinks := links_of_present (Nat.succ_lt_succ hlevel) hpresent hhuge
    exact (h (Nat.succ_pos level) hlinks.1).2 hlinks.2
  link hkind haligned hbound _ _ := by
    obtain ⟨hlinks, hnext⟩ :=
      links_encode_mid (Nat.succ_lt_succ hlevel) haligned hbound
    constructor
    · intro hleaf
      rw [hlinks.2] at hleaf
      cases hleaf
    · intro _
      rw [hnext]
      exact hkind
  empty i := levelRule_unused level i

/-- A call whose leaf is in `P` keeps the levels. -/
theorem SpaceCall.program_levels (call : SpaceCall) (hP : P call.leaf) :
    Evolves (Layout (levelRule P)) False (fun w _ => w.kind pml4 = some 4)
      (call.program pml4) (fun _ _ _ => True) := by
  have hmap : Evolves (Layout (levelRule P)) False
      (fun w _ => w.kind pml4 = some 4 ∧ True) (call.program pml4)
      (fun _ _ _ => True) := by
    refine call.program_layout (fun level => level) (fun level hlow _ =>
      levelRule_descends (lt_of_lt_of_le call.level_bounds.1 hlow) _)
      monotone_const fun w _ _ _ => ⟨fun _ => hP, fun hlinks => ?_⟩
    rw [call.leaf_isLeaf.2] at hlinks
    cases hlinks
  exact hmap.weaken (fun _ _ _ h => ⟨h, trivial⟩) fun _ _ _ h => h

theorem Layout.kind_of_reaches (h : Layout (levelRule P) w s)
    (hroot : w.kind pml4 = some 4) {level t : ℕ}
    (hreach : Reaches x86Format (entryAt s.mem) (tableIndex va) 4 pml4
      level t) : 0 < level ∧ w.kind t = some level := by
  refine hreach.invariant (I := fun level t => 0 < level ∧
    w.kind t = some level) ⟨by decide, hroot⟩ ?_
  rintro level t ⟨hpos, ht⟩ hlinks
  refine ⟨Nat.pos_of_ne_zero ?_,
    (h.labelled _ _ _ ht (tableIndex_lt va _) hpos hlinks.1).2 hlinks.2⟩
  rintro rfl
  cases hlinks.2

theorem Layout.leaf_mem (h : Layout (levelRule P) w s)
    (hroot : w.kind pml4 = some 4) {level : ℕ} {e : PageTableEntry}
    (hleaf : leafOf s.mem pml4 va = some (level, e)) : P e := by
  obtain ⟨t, hreach, hpos, rfl, hpresent, hlast⟩ :=
    Reaches.root.exists_leaf hleaf
  exact (h.labelled _ _ _ (h.kind_of_reaches hroot hreach).2
    (tableIndex_lt va _) hpos hpresent).1 hlast

end Levels

def WxSafe (e : PageTableEntry) : Prop :=
  e.word.getLsbD 1 = true → e.word.getLsbD 63 = true

section Operations

variable {pml4 : ℕ}

theorem leaf_wxSafe (call : SpaceCall) : WxSafe call.leaf := by
  unfold WxSafe
  cases call with
  | small call =>
    rw [SpaceCall.leaf, MapCall.leaf,
      PageTableEntry.getLsbD_encode _ _ (by omega),
      PageTableEntry.getLsbD_encode _ _ (by omega)]
    exact PageTableEntry.noExecute_of_writable
  | large va pa flags =>
    rw [SpaceCall.leaf, PageTableEntry.getLsbD_encodeHuge _ _ (by omega),
      PageTableEntry.getLsbD_encodeHuge _ _ (by omega)]
    exact PageTableEntry.noExecute_of_writable

theorem buildLinearMap_wx {offset highestPhysAddr : BitVec 64} :
    Evolves (Layout (levelRule WxSafe)) False (fun w _ => w.kind pml4 = some 4)
      (buildLinearMap offset pml4 highestPhysAddr) (fun _ _ _ => True) := by
  have hkind : Monotone fun w : Labelling ℕ => w.kind pml4 = some 4 :=
    fun _ _ hle h => hle _ _ h
  rw [buildLinearMap_eq]
  have hloop : Evolves (Layout (levelRule WxSafe)) False
      (fun w _ => w.kind pml4 = some 4) _ (fun _ w _ => w.kind pml4 = some 4) :=
    Evolves.foldRange (L := fun _ _ (w : Labelling ℕ) _ =>
      w.kind pml4 = some 4) (linearMapPages highestPhysAddr) () fun i _ _ =>
        (Evolves.frame hkind ((linearMapCall offset i).program_levels
          (leaf_wxSafe _))).weaken (fun _ _ _ h => ⟨h, h⟩) fun _ _ _ h => h.2
  exact hloop.weaken (fun _ _ _ h => h) fun _ _ _ _ => trivial

theorem inheritKernelMappings_wx {source : ℕ} :
    Evolves (Layout (levelRule WxSafe)) False
      (fun w _ => w.kind pml4 = some 4 ∧ w.kind source = some 4)
      (inheritKernelMappings pml4 source : Prog Physical MmuError Unit)
      (fun _ _ _ => True) :=
  inheritKernelMappings_layout fun _ _ _ _ _ h => h

end Operations

/-! ## Any number of address spaces -/

/-- Physical memory, and the PML4s of the address spaces in it. -/
structure AddressSpaces where
  phys : Physical
  roots : List ℕ

/-- The calls; address spaces are named by their position.  A new one takes a
frame from the allocator. -/
inductive TableCall
  | create
  | mapPage (k : ℕ) (virtAddr physAddr : BitVec 64) (flags : PageTableFlags)
  | mapUserPage (k : ℕ) (virtAddr physAddr : BitVec 64) (write : Bool)
  | map2MibPage (k : ℕ) (virtAddr physAddr : BitVec 64)
      (flags : PageTableFlags)
  | buildLinearMap (k : ℕ) (offset highestPhysAddr : BitVec 64)
  | inheritKernelMappings (k source : ℕ)

namespace AddressSpaces

def runOn (s : AddressSpaces) (x : Prog Physical MmuError Unit) :
    Except MmuError Unit × AddressSpaces :=
  ((x.eval s.phys).1, { s with phys := (x.eval s.phys).2 })

/-- `AddressSpace::new` in a new frame. -/
def create (s : AddressSpaces) : Except MmuError Unit × AddressSpaces :=
  match (allocErased MmuError.frameAllocFailed).eval s.phys with
  | (.error e, phys) => (.error e, { s with phys := phys })
  | (.ok root, phys) =>
    (.ok (), { phys := phys, roots := s.roots ++ [root] })

def step (s : AddressSpaces) :
    TableCall → Option (Except MmuError Unit × AddressSpaces)
  | .create => some s.create
  | .mapPage k virtAddr physAddr flags =>
    s.roots[k]?.map fun pml4 =>
      s.runOn (IsoLightK0.mapPage pml4 virtAddr physAddr flags)
  | .mapUserPage k virtAddr physAddr write =>
    s.roots[k]?.map fun pml4 =>
      s.runOn (IsoLightK0.mapUserPage pml4 virtAddr physAddr write)
  | .map2MibPage k virtAddr physAddr flags =>
    s.roots[k]?.map fun pml4 =>
      s.runOn (IsoLightK0.map2MibPage pml4 virtAddr physAddr flags)
  | .buildLinearMap k offset highestPhysAddr =>
    s.roots[k]?.map fun pml4 =>
      s.runOn (IsoLightK0.buildLinearMap offset pml4 highestPhysAddr)
  | .inheritKernelMappings k source =>
    s.roots[k]?.bind fun pml4 => s.roots[source]?.map fun other =>
      s.runOn (IsoLightK0.inheritKernelMappings pml4 other)

/-- The address spaces are new: their PML4s are empty, aligned and in use. -/
structure Fresh (s : AddressSpaces) : Prop where
  aligned : ∀ pml4 ∈ s.roots, pml4 % frameSize = 0
  reserved : ∀ pml4 ∈ s.roots, ¬ s.phys.allocator.FreeAt pml4
  empty : ∀ pml4 ∈ s.roots, ∀ i, i < tableEntries →
    entryAt s.phys.mem pml4 i = .unused

/-- All tables obey the policy, and the PML4s are of the highest level. -/
def Levelled (s : AddressSpaces) : Prop :=
  ∃ w : Labelling ℕ, Layout (levelRule WxSafe) w s.phys ∧
    ∀ pml4 ∈ s.roots, w.kind pml4 = some 4

variable {s : AddressSpaces}

theorem Fresh.levelled (h : s.Fresh) : s.Levelled := by
  have hmem : ∀ {p r}, (if p ∈ s.roots then some 4 else none) = some r →
      p ∈ s.roots := by
    intro p r hp
    by_contra hnot
    rw [if_neg hnot] at hp
    cases hp
  refine ⟨⟨fun p => if p ∈ s.roots then some 4 else none⟩,
    ⟨fun hp => h.aligned _ (hmem hp), fun hp => h.reserved _ (hmem hp), ?_⟩,
    fun pml4 hpml4 => if_pos hpml4⟩
  intro p r i hp hi
  rw [h.empty p (hmem hp) i hi]
  exact levelRule_unused r i

theorem Levelled.runOn (h : s.Levelled) {x : Prog Physical MmuError Unit}
    {A : Labelling ℕ → Physical → Prop}
    (hx : Evolves (Layout (levelRule WxSafe)) False A x (fun _ _ _ => True))
    (hA : ∀ w : Labelling ℕ, (∀ pml4 ∈ s.roots, w.kind pml4 = some 4) →
      A w s.phys) : (s.runOn x).2.Levelled := by
  obtain ⟨w, hlayout, hroots⟩ := h
  obtain ⟨w', hle, hlayout', -, -⟩ := hx w s.phys hlayout (hA w hroots)
  exact ⟨w', hlayout', fun pml4 hpml4 => hle _ _ (hroots pml4 hpml4)⟩

theorem Levelled.create (h : s.Levelled) : s.create.2.Levelled := by
  obtain ⟨w, hlayout, hroots⟩ := h
  unfold AddressSpaces.create
  rcases eval_allocErased MmuError.frameAllocFailed s.phys with
    ⟨heval, -⟩ | ⟨p, s', heval, htake⟩
  · rw [heval]
    exact ⟨w, hlayout, hroots⟩
  · rw [heval]
    have hle : w ≤ w.assign p 4 :=
      Labelling.le_assign 4 (hlayout.kind_eq_none htake.free)
    refine ⟨w.assign p 4, hlayout.takes_assign htake
      fun i => levelRule_unused 4 i, ?_⟩
    intro pml4 hpml4
    rcases List.mem_append.mp hpml4 with hold | hnew
    · exact hle _ _ (hroots pml4 hold)
    · rw [List.mem_singleton.mp hnew]
      exact w.kind_assign_self p 4

theorem Levelled.step (h : s.Levelled) {call : TableCall}
    {r : Except MmuError Unit} {s' : AddressSpaces}
    (hstep : s.step call = some (r, s')) : s'.Levelled := by
  have hone : ∀ {k : ℕ} {f : ℕ → Prog Physical MmuError Unit},
      (∀ pml4, Evolves (Layout (levelRule WxSafe)) False
        (fun w _ => w.kind pml4 = some 4) (f pml4) (fun _ _ _ => True)) →
      (s.roots[k]?.map fun pml4 => s.runOn (f pml4)) = some (r, s') →
        s'.Levelled := by
    intro k f hf hmap
    obtain ⟨pml4, hget, hrun⟩ := Option.map_eq_some_iff.mp hmap
    have hafter := h.runOn (hf pml4) fun w hroots =>
      hroots pml4 (List.mem_of_getElem? hget)
    rw [hrun] at hafter
    exact hafter
  cases call with
  | create =>
    have hafter := h.create
    rw [Option.some.inj hstep] at hafter
    exact hafter
  | mapPage k virtAddr physAddr flags =>
    exact hone (fun _ => SpaceCall.program_levels
      (.small (.page virtAddr physAddr flags)) (leaf_wxSafe _)) hstep
  | mapUserPage k virtAddr physAddr write =>
    exact hone (fun _ => SpaceCall.program_levels
      (.small (.userPage virtAddr physAddr write)) (leaf_wxSafe _)) hstep
  | map2MibPage k virtAddr physAddr flags =>
    exact hone (fun _ => SpaceCall.program_levels
      (.large virtAddr physAddr flags) (leaf_wxSafe _)) hstep
  | buildLinearMap k offset highestPhysAddr =>
    exact hone (fun _ => buildLinearMap_wx) hstep
  | inheritKernelMappings k source =>
    obtain ⟨pml4, hget, hmap⟩ := Option.bind_eq_some_iff.mp hstep
    obtain ⟨other, hfrom, hrun⟩ := Option.map_eq_some_iff.mp hmap
    have hafter : (s.runOn
        (IsoLightK0.inheritKernelMappings pml4 other)).2.Levelled :=
      h.runOn inheritKernelMappings_wx fun w hroots =>
        ⟨hroots pml4 (List.mem_of_getElem? hget),
          hroots other (List.mem_of_getElem? hfrom)⟩
    rw [hrun] at hafter
    exact hafter

theorem Levelled.wxSafe (h : s.Levelled) {pml4 : ℕ} (hpml4 : pml4 ∈ s.roots)
    {va : BitVec 64} {level : ℕ} {e : PageTableEntry}
    (hleaf : leafOf s.phys.mem pml4 va = some (level, e)) : WxSafe e := by
  obtain ⟨w, hlayout, hroots⟩ := h
  exact hlayout.leaf_mem (hroots pml4 hpml4) hleaf

end AddressSpaces

/-- Over any run of calls on any number of address spaces, a leaf that is
reachable from a PML4 is not writable without `NO_EXECUTE`. -/
theorem wx_run {s₀ s : AddressSpaces}
    {history : List (TableCall × Except MmuError Unit)} (hfresh : s₀.Fresh)
    (hrun : Run AddressSpaces.step s₀ history s) {pml4 : ℕ}
    (hpml4 : pml4 ∈ s.roots) {va : BitVec 64} {level : ℕ}
    {e : PageTableEntry}
    (hleaf : leafOf s.phys.mem pml4 va = some (level, e)) :
    e.flags.contains writable = true → e.flags.contains noExecute = true := by
  have hlevelled : s.Levelled :=
    hrun.invariant (I := AddressSpaces.Levelled) hfresh.levelled
      fun _ _ _ _ h hstep => h.step hstep
  rw [writable, noExecute, e.flags_contains_bit (by omega) (by omega),
    e.flags_contains_bit (by omega) (by omega)]
  exact hlevelled.wxSafe hpml4 hleaf

def AddressSpaces.single : AddressSpaces where
  phys := emptySpace.state
  roots := [emptySpace.pml4]

theorem AddressSpaces.single_fresh : single.Fresh where
  aligned pml4 h := by
    rw [List.mem_singleton.mp h]
    exact emptySpace.aligned
  reserved pml4 h := by
    rw [List.mem_singleton.mp h]
    exact emptySpace.reserved
  empty pml4 h := by
    rw [List.mem_singleton.mp h]
    exact emptySpace.empty

def largePageCall : TableCall := .map2MibPage 0 0xFFFF_8000_0000_0000 0 mid

theorem wx_run_large_page :
    ∃ s e, Run AddressSpaces.step .single [(largePageCall, .ok ())] s ∧
      leafOf s.phys.mem emptySpace.pml4 0xFFFF_8000_0000_0000 = some (2, e) ∧
      e.flags.contains writable = true ∧
      (e.flags.contains writable = true →
        e.flags.contains noExecute = true) := by
  have hrun : Run AddressSpaces.step .single [(largePageCall, .ok ())]
      (AddressSpaces.single.runOn (map2MibPage emptySpace.pml4
        0xFFFF_8000_0000_0000 0 mid)).2 :=
    Run.next Run.start rfl
  have hleaf : leafOf (AddressSpaces.single.runOn (map2MibPage emptySpace.pml4
      0xFFFF_8000_0000_0000 0 mid)).2.phys.mem emptySpace.pml4
      0xFFFF_8000_0000_0000 = some (2, .encodeHuge 0
        ((mid.union present).union hugePage)) := by
    decide +kernel
  exact ⟨_, _, hrun, hleaf, by decide,
    wx_run AddressSpaces.single_fresh hrun (List.mem_singleton_self _) hleaf⟩

end IsoLightK0
