import IsoLightK0.Aarch64.Forest
import IsoLightK0.Mmu.Permissions

/-!
# Effective permissions on aarch64

`map_page` turns flags into the access, `UXN` and `PXN` bits of a descriptor.
Fetches at EL0 are governed by `UXN` alone and fetches at EL1 by `PXN` alone,
whatever the access bits say.  The builder for kernel pages leaves both clear
for an executable page, and the builder for user pages does not look at
`NO_EXECUTE`; so not all flags are honoured.
-/

namespace IsoLightK0.Aarch64

open Bytes Triples Worlds Runs Radix

/-- What stage 1 lets the two exception levels do. -/
structure Permissions where
  el0Read : Bool
  el0Write : Bool
  el0Fetch : Bool
  el1Write : Bool
  el1Fetch : Bool
  deriving DecidableEq, Repr

namespace Permissions

/-- The permissions that a page or block descriptor gives. -/
def ofLeaf (d : BitVec 64) : Permissions where
  el0Read := d.getLsbD 6
  el0Write := d.getLsbD 6 && !d.getLsbD 7
  el0Fetch := !d.getLsbD 54
  el1Write := !d.getLsbD 7
  el1Fetch := !d.getLsbD 53

/-- A table descriptor can take permissions away from everything below it. -/
def below (p : Permissions) (d : BitVec 64) : Permissions where
  el0Read := p.el0Read && !d.getLsbD 61
  el0Write := p.el0Write && !d.getLsbD 61 && !d.getLsbD 62
  el0Fetch := p.el0Fetch && !d.getLsbD 60
  el1Write := p.el1Write && !d.getLsbD 62
  el1Fetch := p.el1Fetch && !d.getLsbD 59

end Permissions

/-- The walk of the processor.  Reserved encodings are not valid: there are no
blocks at the highest level, and bit 1 is set at the lowest. -/
def stage1 (m : Mem) (va : BitVec 64) :
    (level table : ℕ) → Option Permissions
  | 0, _ => none
  | level + 1, table =>
    let d := descriptorAt m table (index va (level + 1))
    if ¬ d.getLsbD 0 then none
    else if d.getLsbD 1 then
      if level = 0 then some (.ofLeaf d)
      else (stage1 m va level (d &&& paMask).toNat).map fun p => p.below d
    else if level = 0 ∨ level = 3 then none
    else some (.ofLeaf d)

/-- The effective permissions at an address below one of the roots. -/
def permissions (m : Mem) (space : ℕ) (high : Bool) (va : BitVec 64) :
    Option Permissions :=
  stage1 m va 4 (root space high)

structure Honours (flags : PageTableFlags) (p : Permissions) : Prop where
  no_execute : flags.contains Flags.noExecute = true →
    p.el0Fetch = false ∧ p.el1Fetch = false
  supervisor : flags.contains Flags.userAccessible = false →
    p.el0Read = false ∧ p.el0Write = false ∧ p.el0Fetch = false
  read_only : flags.contains Flags.writable = false →
    p.el0Write = false ∧ p.el1Write = false

/-! ## The walk and the lookup -/

/-- The table descriptors that are stored take nothing away. -/
theorem below_tableDesc (p : Permissions) (next : ℕ) :
    p.below (tableDesc next) = p := by
  have hclear : ∀ k, 48 ≤ k → k < 64 →
      (tableDesc next).getLsbD k = false := by
    intro k hlow hhigh
    rw [getLsbD_tableDesc next hhigh (by omega)]
    exact decide_eq_false (by omega)
  unfold Permissions.below
  rw [hclear 59 (by omega) (by omega), hclear 60 (by omega) (by omega),
    hclear 61 (by omega) (by omega), hclear 62 (by omega) (by omega)]
  simp

theorem Forest.permissions_eq {space : ℕ} {w : Labelling (List ℕ)} {m : Mem}
    (h : Forest space w m) (high : Bool) (va : BitVec 64) :
    permissions m space high va =
      (leafOf m space high va).map fun leaf => .ofLeaf leaf.2.word := by
  have hbelow : ∀ level t, ReachesIn m space high va level t →
      stage1 m va level t = (lookup format (entryAt m) (index va) level t).map
        fun leaf => .ofLeaf leaf.2.word := by
    intro level
    induction level with
    | zero => exact fun _ _ => rfl
    | succ level ih =>
      intro t hreach
      have hrule := (h.labelled _ _ _ (h.kind_eq hreach)
        (index_lt va (level + 1))).2
      have hlength : (route (index va) 4 (level + 1) ++ place high).length =
          4 - (level + 1) + 1 := by
        rw [List.length_append, length_route]
        rfl
      rw [stage1, descriptorAt]
      rcases entry_cases format (level + 1)
        (entryAt m t (index va (level + 1))) with
        habsent | ⟨hpresent, hleaf⟩ | hlinks
      · rw [lookup_of_absent habsent, if_pos (Bool.not_eq_true _ ▸ habsent)]
        rfl
      · have hpage := (hrule hpresent).1
        have hlevel : level = 0 := by
          have hor : (decide (level + 1 = 1) || !(entryAt m t
            (index va (level + 1))).word.getLsbD 1) = true := hleaf
          rw [hpage] at hor
          simpa using hor
        have hvalid : (entryAt m t (index va (level + 1))).word.getLsbD 0 =
            true := hpresent
        rw [lookup_of_leaf hpresent hleaf, if_neg (not_not.mpr hvalid),
          if_pos hpage, if_pos hlevel]
        rfl
      · obtain ⟨hpage, hdesc⟩ := hrule hlinks.1
        have hlevel : level ≠ 0 := by
          rintro rfl
          exact Bool.noConfusion (show true = false from hlinks.2)
        have hvalid : (entryAt m t (index va (level + 1))).word.getLsbD 0 =
            true := hlinks.1
        have hkeep : (fun p : Permissions => p.below
            (entryAt m t (index va (level + 1))).word) = id := by
          funext p
          rw [hdesc (by omega)]
          exact below_tableDesc p _
        rw [lookup_of_links hlinks, if_neg (not_not.mpr hvalid),
          if_pos hpage, if_neg hlevel, hkeep, Option.map_id]
        exact ih _ (hreach.down hlinks)
  exact hbelow 4 _ .root

/-! ## The builders of descriptors -/

/-- The bits that `leaf_desc` sets besides the address of a page. -/
def kernelBits (writable executable : Bool) : BitVec 64 :=
  let d := descValid ||| descPage ||| descAf ||| (attrNormal ||| shInner) |||
    if writable then apRwEl1 else apRoEl1
  if writable ∨ ¬ executable then d ||| (descUxn ||| descPxn) else d

/-- The bits that `leaf_desc_user` sets. -/
def userBits (writable : Bool) : BitVec 64 :=
  descValid ||| descPage ||| descAf ||| attrNormal ||| shInner |||
    if writable then apRwEl1El0 ||| descUxn ||| descPxn
    else apRoEl1El0 ||| descPxn

/-- The bits for a page with the given flags. -/
def pageBits (flags : PageTableFlags) : BitVec 64 :=
  if flags.contains Flags.userAccessible then
    userBits (flags.contains Flags.writable)
  else
    kernelBits (flags.contains Flags.writable)
      !flags.contains Flags.noExecute

theorem leafDesc_eq_ok {pa leaf : BitVec 64} {writable executable : Bool}
    (h : leafDesc pa writable executable false = .ok leaf) :
    leaf = kernelBits writable executable ||| (pa &&& paMask) := by
  unfold leafDesc at h
  split at h
  · cases h
  · split at h
    · cases h
    · cases h
      unfold kernelBits
      dsimp only
      rw [if_neg Bool.false_ne_true]
      split
      · ac_rfl
      · ac_rfl

theorem leafDescUser_eq_ok {pa leaf : BitVec 64} {writable : Bool}
    (h : leafDescUser pa writable = .ok leaf) :
    leaf = userBits writable ||| (pa &&& paMask) := by
  unfold leafDescUser at h
  split at h
  · cases h
  · cases h
    unfold userBits
    ac_rfl

theorem pageDesc_eq_ok {pa leaf : BitVec 64} {flags : PageTableFlags}
    (h : pageDesc pa flags = .ok leaf) :
    leaf = pageBits flags ||| (pa &&& paMask) := by
  unfold pageDesc at h
  unfold pageBits
  split at h
  · rename_i huser
    rw [if_pos huser]
    exact leafDescUser_eq_ok h
  · rename_i huser
    rw [if_neg huser]
    exact leafDesc_eq_ok h

theorem getLsbD_or_address (bits pa : BitVec 64) {k : ℕ}
    (hflag : ¬ (12 ≤ k ∧ k < 48)) :
    (bits ||| (pa &&& paMask)).getLsbD k = bits.getLsbD k := by
  rw [BitVec.getLsbD_or, BitVec.getLsbD_and, getLsbD_paMask,
    decide_eq_false hflag, Bool.and_false, Bool.or_false]

theorem ofLeaf_or_address (bits pa : BitVec 64) :
    Permissions.ofLeaf (bits ||| (pa &&& paMask)) = .ofLeaf bits := by
  unfold Permissions.ofLeaf
  rw [getLsbD_or_address bits pa (by omega),
    getLsbD_or_address bits pa (by omega),
    getLsbD_or_address bits pa (by omega),
    getLsbD_or_address bits pa (by omega)]

/-- The flags that the builders can express: those of a writable page, of a
page that the user executes, and of a page of the kernel that nobody
executes. -/
def Expressible (flags : PageTableFlags) : Prop :=
  flags.contains Flags.writable = true ∨
    (flags.contains Flags.userAccessible = true ↔
      flags.contains Flags.noExecute = false)

/-- A descriptor honours flags that `map_page` accepts in these cases only. -/
theorem honours_pageBits_iff {flags : PageTableFlags}
    (haccepted : ¬ (flags.contains Flags.writable = true ∧
      ¬ flags.contains Flags.noExecute = true)) :
    Honours flags (.ofLeaf (pageBits flags)) ↔ Expressible flags := by
  have hsplit : ∀ p, Honours flags p ↔
      (flags.contains Flags.noExecute = true →
        p.el0Fetch = false ∧ p.el1Fetch = false) ∧
      (flags.contains Flags.userAccessible = false →
        p.el0Read = false ∧ p.el0Write = false ∧ p.el0Fetch = false) ∧
      (flags.contains Flags.writable = false →
        p.el0Write = false ∧ p.el1Write = false) :=
    fun p => ⟨fun h => ⟨h.no_execute, h.supervisor, h.read_only⟩,
      fun h => ⟨h.1, h.2.1, h.2.2⟩⟩
  rw [hsplit]
  unfold Expressible pageBits
  revert haccepted
  generalize flags.contains Flags.writable = writable
  generalize flags.contains Flags.userAccessible = user
  generalize flags.contains Flags.noExecute = noExecute
  revert writable user noExecute
  decide

theorem valid_pageBits (flags : PageTableFlags) :
    (pageBits flags).getLsbD 0 = true ∧ (pageBits flags).getLsbD 1 = true := by
  unfold pageBits
  generalize flags.contains Flags.writable = writable
  generalize flags.contains Flags.userAccessible = user
  generalize flags.contains Flags.noExecute = noExecute
  revert writable user noExecute
  decide

/-- What `map_user_page` maps: code, which is executable, and data, which is
not. -/
def userFlags (writable : Bool) : PageTableFlags :=
  let flags := Flags.present.union Flags.userAccessible
  if writable then (flags.union Flags.writable).union Flags.noExecute
  else flags

theorem pageBits_userFlags :
    ∀ writable, pageBits (userFlags writable) = userBits writable := by
  decide

theorem expressible_userFlags (writable : Bool) :
    Expressible (userFlags writable) := by
  have h : ∀ writable, (userFlags writable).contains Flags.writable = true ∨
      ((userFlags writable).contains Flags.userAccessible = true ↔
        (userFlags writable).contains Flags.noExecute = false) := by
    decide
  exact h writable

/-! ## Calls -/

inductive MapCall
  | mapPage (virtAddr physAddr : BitVec 64) (flags : PageTableFlags)
  | mapUserPage (virtAddr physAddr : BitVec 64) (writable : Bool)

namespace MapCall

def virtAddr : MapCall → BitVec 64
  | mapPage virtAddr _ _ => virtAddr
  | mapUserPage virtAddr _ _ => virtAddr

def physAddr : MapCall → BitVec 64
  | mapPage _ physAddr _ => physAddr
  | mapUserPage _ physAddr _ => physAddr

def high : MapCall → Bool
  | mapPage virtAddr _ _ => isHigh virtAddr
  | mapUserPage _ _ _ => false

def flags : MapCall → PageTableFlags
  | mapPage _ _ flags => flags
  | mapUserPage _ _ writable => userFlags writable

def run (space : ℕ) : MapCall → Prog Machine MmuError Unit
  | mapPage virtAddr physAddr flags =>
    Aarch64.mapPage space virtAddr physAddr flags
  | mapUserPage virtAddr physAddr writable =>
    Aarch64.mapUserPage space virtAddr physAddr writable

def leaf (call : MapCall) : BitVec 64 :=
  pageBits call.flags ||| (call.physAddr &&& paMask)

theorem run_cases (call : MapCall) (space : ℕ) (s : Machine) :
    (∃ e, (call.run space).eval s = (.error e, s)) ∨
      (¬ (call.flags.contains Flags.writable = true ∧
          ¬ call.flags.contains Flags.noExecute = true) ∧
        (call.run space).eval s =
          (mapDesc space call.high call.virtAddr call.leaf).eval s) := by
  cases call with
  | mapPage virtAddr physAddr flags =>
    unfold run Aarch64.mapPage
    rw [Prog.eval_exitIf_bind]
    split
    · exact .inl ⟨_, rfl⟩
    · rw [Prog.eval_exitIf_bind]
      split
      · exact .inl ⟨_, rfl⟩
      · rename_i haccepted
        cases hdesc : pageDesc physAddr flags with
        | error e => exact .inl ⟨e, rfl⟩
        | ok leaf =>
          rw [pageDesc_eq_ok hdesc]
          exact .inr ⟨haccepted, rfl⟩
  | mapUserPage virtAddr physAddr writable =>
    have haccepted : ∀ writable,
        ¬ ((userFlags writable).contains Flags.writable = true ∧
          ¬ (userFlags writable).contains Flags.noExecute = true) := by
      decide
    unfold run Aarch64.mapUserPage
    rw [Prog.eval_exitIf_bind]
    split
    · exact .inl ⟨_, rfl⟩
    · cases hdesc : leafDescUser physAddr writable with
      | error e => exact .inl ⟨e, rfl⟩
      | ok leaf =>
        rw [leafDescUser_eq_ok hdesc, ← pageBits_userFlags]
        exact .inr ⟨haccepted writable, rfl⟩

def Maps (call : MapCall) (high : Bool) (va : BitVec 64) : Prop :=
  SamePage call.high call.virtAddr high va

theorem maps_self (call : MapCall) : call.Maps call.high call.virtAddr :=
  ⟨rfl, fun _ _ => rfl⟩

end MapCall

def mapStep (space : ℕ) (s : Machine) (call : MapCall) :
    Option (Except MmuError Unit × Machine) :=
  some ((call.run space).eval s)

/-- What the calls so far have mapped is mapped, and nothing else. -/
structure Mapped (space : ℕ) (history : List (MapCall × Except MmuError Unit))
    (w : Labelling (List ℕ)) (s : Machine) : Prop where
  forest : Forest space w s.mem
  accepted : ∀ call, (call, .ok ()) ∈ history →
    ¬ (call.flags.contains Flags.writable = true ∧
      ¬ call.flags.contains Flags.noExecute = true)
  present : ∀ call, (call, .ok ()) ∈ history → ∀ high va,
    call.Maps high va → leafOf s.mem space high va = some (1, ⟨call.leaf⟩)
  only : ∀ high va leaf, leafOf s.mem space high va = some leaf →
    ∃ call, (call, .ok ()) ∈ history ∧ call.Maps high va

section Run

variable {space : ℕ} {history : List (MapCall × Except MmuError Unit)}
  {w : Labelling (List ℕ)} {s s' : Machine} {call : MapCall}
  {r : Except MmuError Unit}

theorem Mapped.fail (h : Mapped space history w s) (e : MmuError)
    {w' : Labelling (List ℕ)} (hforest : Forest space w' s'.mem)
    (hsame : ∀ high va,
      leafOf s'.mem space high va = leafOf s.mem space high va) :
    Mapped space ((call, .error e) :: history) w' s' := by
  have hmem : ∀ {call'}, (call', .ok ()) ∈ (call, .error e) :: history →
      (call', .ok ()) ∈ history := by
    intro call' hcall'
    rcases List.mem_cons.mp hcall' with heq | hold
    · cases heq
    · exact hold
  refine ⟨hforest, fun call' hcall' => h.accepted call' (hmem hcall'), ?_, ?_⟩
  · intro call' hcall' high va hmaps
    rw [hsame]
    exact h.present call' (hmem hcall') high va hmaps
  · intro high va leaf hleaf
    rw [hsame] at hleaf
    obtain ⟨call', hcall', hmaps⟩ := h.only high va leaf hleaf
    exact ⟨call', List.mem_cons_of_mem _ hcall', hmaps⟩

/-- A call that succeeds maps its page, which was not mapped before. -/
theorem Mapped.gain (h : Mapped space history w s)
    {w' : Labelling (List ℕ)} (hforest : Forest space w' s'.mem)
    (haccepted : ¬ (call.flags.contains Flags.writable = true ∧
      ¬ call.flags.contains Flags.noExecute = true))
    (hgains : Gains space call.high call.virtAddr call.leaf s.mem s'.mem) :
    Mapped space ((call, .ok ()) :: history) w' s' := by
  refine ⟨hforest, ?_, ?_, ?_⟩
  · intro call' hcall'
    rcases List.mem_cons.mp hcall' with heq | hold
    · cases heq
      exact haccepted
    · exact h.accepted call' hold
  · intro call' hcall' high va hmaps
    rcases List.mem_cons.mp hcall' with heq | hold
    · cases heq
      exact ((hgains high va).1 hmaps).2
    · have hbefore := h.present call' hold high va hmaps
      have hother : ¬ SamePage call.high call.virtAddr high va := by
        intro hpage
        rw [((hgains high va).1 hpage).1] at hbefore
        cases hbefore
      rw [(hgains high va).2 hother]
      exact hbefore
  · intro high va leaf hleaf
    by_cases hpage : SamePage call.high call.virtAddr high va
    · exact ⟨call, List.mem_cons_self, hpage⟩
    · rw [(hgains high va).2 hpage] at hleaf
      obtain ⟨call', hcall', hmaps⟩ := h.only high va leaf hleaf
      exact ⟨call', List.mem_cons_of_mem _ hcall', hmaps⟩

theorem MapCall.valid_leaf (call : MapCall) :
    call.leaf.getLsbD 0 = true ∧ call.leaf.getLsbD 1 = true := by
  obtain ⟨hvalid, hpage⟩ := valid_pageBits call.flags
  unfold MapCall.leaf
  rw [getLsbD_or_address _ _ (by omega), getLsbD_or_address _ _ (by omega)]
  exact ⟨hvalid, hpage⟩

theorem Mapped.step (h : Mapped space history w s)
    (hstep : mapStep space s call = some (r, s')) :
    ∃ w', Mapped space ((call, r) :: history) w' s' := by
  have heval : (call.run space).eval s = (r, s') := Option.some.inj hstep
  rcases call.run_cases space s with ⟨e, herror⟩ | ⟨haccepted, hrun⟩
  · rw [herror] at heval
    cases heval
    exact ⟨w, h.fail e h.forest fun _ _ => rfl⟩
  · obtain ⟨⟨w', hforest⟩, hcases⟩ := mapDesc_cases h.forest call.high
      call.virtAddr call.valid_leaf.1 call.valid_leaf.2
    rw [← hrun, heval] at hforest hcases
    rcases hcases with ⟨e, rfl, hsame⟩ | ⟨rfl, hgains⟩
    · exact ⟨w', h.fail e hforest hsame⟩
    · exact ⟨w', h.gain hforest haccepted hgains⟩

theorem mapped_run {s₀ : Machine} (hnew : IsNew space s₀.mem)
    (hrun : Run (mapStep space) s₀ history s) :
    ∃ w, Mapped space history w s := by
  refine hrun.history_invariant
    (I := fun history s => ∃ w, Mapped space history w s) ⟨_, hnew.forest,
      fun _ h => (nomatch h), fun _ h => (nomatch h), ?_⟩
      fun _ _ _ _ _ _ ⟨_, h⟩ hstep => h.step hstep
  intro high va leaf hleaf
  rw [hnew.leafOf_eq] at hleaf
  cases hleaf

theorem Mapped.permissions_eq (h : Mapped space history w s)
    (hcall : (call, .ok ()) ∈ history) {high : Bool} {va : BitVec 64}
    (hmaps : call.Maps high va) :
    permissions s.mem space high va = some (.ofLeaf (pageBits call.flags)) := by
  rw [h.forest.permissions_eq, h.present call hcall high va hmaps,
    Option.map_some]
  exact congrArg some (ofLeaf_or_address _ _)

end Run

/-- Every page that is mapped has permissions that honour the flags it was
mapped with. -/
def PermissionsHonoured (space : ℕ)
    (history : List (MapCall × Except MmuError Unit)) (m : Mem) : Prop :=
  ∀ high va p, permissions m space high va = some p →
    ∀ call, (call, .ok ()) ∈ history → call.Maps high va →
      Honours call.flags p

/-- After any run of calls on a new address space the mapped pages are those of
the calls, and their flags are honoured exactly if the builders can express the
flags of every page that `map_page` has mapped. -/
theorem permissions_honoured_iff {space : ℕ} {s₀ s : Machine}
    (hnew : IsNew space s₀.mem)
    {history : List (MapCall × Except MmuError Unit)}
    (hrun : Run (mapStep space) s₀ history s) :
    (∀ high va p, permissions s.mem space high va = some p →
      ∃ call, (call, .ok ()) ∈ history ∧ call.Maps high va) ∧
    (PermissionsHonoured space history s.mem ↔
      ∀ virtAddr physAddr flags,
        (.mapPage virtAddr physAddr flags, .ok ()) ∈ history →
          Expressible flags) := by
  obtain ⟨w, h⟩ := mapped_run hnew hrun
  have hhonours : ∀ call, (call, .ok ()) ∈ history →
      (Honours call.flags (.ofLeaf (pageBits call.flags)) ↔
        Expressible call.flags) :=
    fun call hcall => honours_pageBits_iff (h.accepted call hcall)
  refine ⟨?_, ?_, ?_⟩
  · intro high va p hp
    rw [h.forest.permissions_eq] at hp
    obtain ⟨leaf, hleaf, -⟩ := Option.map_eq_some_iff.mp hp
    exact h.only high va leaf hleaf
  · intro hall virtAddr physAddr flags hcall
    have hown := (MapCall.mapPage virtAddr physAddr flags).maps_self
    exact (hhonours _ hcall).mp
      (hall _ _ _ (h.permissions_eq hcall hown) _ hcall hown)
  · intro hexpressible high va p hp call hcall hmaps
    rw [h.permissions_eq hcall hmaps] at hp
    cases hp
    refine (hhonours call hcall).mpr ?_
    cases call with
    | mapPage virtAddr physAddr flags =>
      exact hexpressible virtAddr physAddr flags hcall
    | mapUserPage virtAddr physAddr writable =>
      exact expressible_userFlags writable

/-! ## Two pages -/

def zeroMachine : Machine where
  phys := { mem := fun _ => 0, allocator := lowFramesUsed }
  trace := []

theorem zeroMachine_isNew : IsNew 0x200000 zeroMachine.mem :=
  ⟨by decide, by decide, fun _ _ _ => rfl⟩

theorem run_two {space : ℕ} {s : Machine} {first second : MapCall}
    (hfirst : ((first.run space).eval s).1 = .ok ())
    (hsecond : ((second.run space).eval
      ((first.run space).eval s).2).1 = .ok ()) :
    Run (mapStep space) s [(second, .ok ()), (first, .ok ())]
      ((second.run space).eval ((first.run space).eval s).2).2 :=
  Run.next (Run.next Run.start (congrArg some (Prod.ext hfirst rfl)))
    (congrArg some (Prod.ext hsecond rfl))

def kernelCode : MapCall := .mapPage 0x40000000 0x40000000 Flags.present

def userConstants : MapCall :=
  .mapPage 0x400000 0x500000
    ((Flags.present.union Flags.userAccessible).union Flags.noExecute)

def kernelData : MapCall :=
  .mapPage 0x40000000 0x40000000
    ((Flags.present.union Flags.writable).union Flags.noExecute)

def userCode : MapCall := .mapUserPage 0x400000 0x500000 false

theorem permissions_honoured_iff_data :
    ∃ s, Run (mapStep 0x200000) zeroMachine
        [(userCode, .ok ()), (kernelData, .ok ())] s ∧
      PermissionsHonoured 0x200000
        [(userCode, .ok ()), (kernelData, .ok ())] s.mem := by
  have hfirst : ((kernelData.run 0x200000).eval zeroMachine).1 = .ok () := by
    decide +kernel
  have hsecond : ((userCode.run 0x200000).eval
      ((kernelData.run 0x200000).eval zeroMachine).2).1 = .ok () := by
    decide +kernel
  have hrun := run_two hfirst hsecond
  refine ⟨_, hrun, (permissions_honoured_iff zeroMachine_isNew hrun).2.mpr ?_⟩
  intro virtAddr physAddr flags hmem
  rcases List.mem_cons.mp hmem with heq | hmem
  · cases heq
  · cases List.mem_singleton.mp hmem
    exact .inl (by decide)

/-- The user can execute both. -/
theorem kernelCode_user_executable :
    ∃ s, Run (mapStep 0x200000) zeroMachine
        [(userConstants, .ok ()), (kernelCode, .ok ())] s ∧
      IsNew 0x200000 zeroMachine.mem ∧
      kernelCode.flags.contains Flags.userAccessible = false ∧
      permissions s.mem 0x200000 false 0x40000000 =
        some ⟨false, false, true, false, true⟩ ∧
      userConstants.flags.contains Flags.noExecute = true ∧
      permissions s.mem 0x200000 false 0x400000 =
        some ⟨true, false, true, false, false⟩ := by
  have hfirst : ((kernelCode.run 0x200000).eval zeroMachine).1 = .ok () := by
    decide +kernel
  have hsecond : ((userConstants.run 0x200000).eval
      ((kernelCode.run 0x200000).eval zeroMachine).2).1 = .ok () := by
    decide +kernel
  have hrun := run_two hfirst hsecond
  obtain ⟨w, h⟩ := mapped_run zeroMachine_isNew hrun
  have hkernel := h.permissions_eq (List.mem_cons_of_mem _
    (List.mem_singleton_self _)) kernelCode.maps_self
  have huser := h.permissions_eq List.mem_cons_self userConstants.maps_self
  exact ⟨_, hrun, zeroMachine_isNew, by decide, hkernel, by decide, huser⟩

end IsoLightK0.Aarch64
