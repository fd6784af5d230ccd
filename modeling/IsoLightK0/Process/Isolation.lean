import IsoLightK0.Process.Ownership
import IsoLightK0.Process.UserWindow
import Mathlib.Data.Set.Defs

/-!
# Isolation of spawned processes

Over any run of spawn calls, failed ones included, the frames that the user
pages of a process lead to belong to that process alone: they are neither pages
of another process, nor tables of any address space, nor part of the boot
stack.  Address spaces that a failed call leaves behind count as well, so the
runs are instrumented with the PML4s taken so far.
-/

namespace IsoLightK0

open Bytes Triples Worlds Runs Radix PageTableFlags

/-- The numbers of the frames that user-accessible leaves lead to. -/
def userFrames (m : Mem) (pml4 : ℕ) : Set ℕ :=
  { f | ∃ va t, translate m pml4 va = some t ∧
      t.flags.contains userAccessible = true ∧ t.phys / frameSize = f }

def TableOf (m : Mem) (pml4 t : ℕ) : Prop :=
  ∃ va level, Reaches x86Format (entryAt m) (tableIndex va) 4 pml4 level t

def tableFrames (m : Mem) (pml4 : ℕ) : Set ℕ :=
  { f | ∃ t, TableOf m pml4 t ∧ t / frameSize = f }

def BootStack.frames (stack : BootStack) : Set ℕ :=
  { f | stack.Frame (f * frameSize) }

/-- The address space of the kernel: its tables are in use and apart from the
boot stack, and its upper half has no leaves with user access. -/
structure KernelMappings (stack : BootStack) (kernelSpace : ℕ)
    (s : Physical) : Prop where
  aligned : kernelSpace % frameSize = 0
  in_use : ∀ t, TableOf s.mem kernelSpace t → ¬ s.allocator.FreeAt t
  apart : ∀ t, TableOf s.mem kernelSpace t → ¬ stack.Frame t
  supervisor : ∀ va leaf, 256 ≤ tableIndex va 4 →
    leafOf s.mem kernelSpace va = some leaf →
      leaf.2.flags.contains userAccessible = false

section Kernel

variable {stack : BootStack} {kernelSpace : ℕ} {s₀ : Physical}

theorem KernelMappings.table_aligned
    (h : KernelMappings stack kernelSpace s₀) {t : ℕ}
    (ht : TableOf s₀.mem kernelSpace t) : t % frameSize = 0 := by
  obtain ⟨va, level, hreach⟩ := ht
  exact hreach.invariant (I := fun _ t => t % frameSize = 0) h.aligned
    fun _ _ => PageTableEntry.physAddr_aligned _

/-- The tables of the kernel, and the other frames that are in use. -/
noncomputable def bootLabels (kernelSpace : ℕ) (s₀ : Physical) :
    Labelling FrameUse :=
  .split (TableOf s₀.mem kernelSpace) .kernel
    (fun p => p % frameSize = 0 ∧ ¬ s₀.allocator.FreeAt p) .boot

theorem KernelMappings.layout (h : KernelMappings stack kernelSpace s₀) :
    Layout (useRule s₀.mem kernelSpace) (bootLabels kernelSpace s₀) s₀ where
  aligned hp := by
    rcases Labelling.kind_split_cases hp with ⟨htable, -⟩ | ⟨hused, -⟩
    · exact h.table_aligned htable
    · exact hused.1
  reserved hp := by
    rcases Labelling.kind_split_cases hp with ⟨htable, -⟩ | ⟨hused, -⟩
    · exact h.in_use _ htable
    · exact hused.2
  labelled := by
    intro p r i hp _
    rcases Labelling.kind_split_cases hp with ⟨-, rfl⟩ | ⟨-, rfl⟩
    · rfl
    · trivial

theorem KernelMappings.bootUses (h : KernelMappings stack kernelSpace s₀)
    (hreserved : stack.Reserved s₀) :
    BootUses stack kernelSpace (bootLabels kernelSpace s₀) where
  kernel := Labelling.kind_split_left ⟨0, 4, .root⟩
  stack p hp := Labelling.kind_split_right (fun htable => h.apart p htable hp)
    ⟨hp.1, hreserved p hp⟩

end Kernel

/-! ## The frames by their uses -/

section Uses

variable {stack : BootStack} {kernelSpace : ℕ} {s₀ s : Physical}
  {w : Labelling FrameUse} {pml4 : ℕ} {va : BitVec 64}

/-- The uses at the start have been kept, and all entries agree with the
uses. -/
structure Owned (stack : BootStack) (kernelSpace : ℕ) (s₀ : Physical)
    (w : Labelling FrameUse) (s : Physical) : Prop where
  layout : Layout (useRule s₀.mem kernelSpace) w s
  boot : bootLabels kernelSpace s₀ ≤ w
  uses : BootUses stack kernelSpace w

namespace Owned

variable (h : Owned stack kernelSpace s₀ w s)

include h

theorem entry_kernel {t i : ℕ} (ht : TableOf s₀.mem kernelSpace t)
    (hi : i < tableEntries) :
    entryAt s.mem t i = entryAt s₀.mem t i :=
  h.layout.labelled t (.kernel t) i (h.boot _ _ (Labelling.kind_split_left ht)) hi

theorem kernel_reaches {level t : ℕ}
    (hreach : ReachesIn s kernelSpace va level t) :
    ReachesIn s₀ kernelSpace va level t := by
  refine hreach.invariant (I := ReachesIn s₀ kernelSpace va) .root ?_
  intro level t hup hlinks
  rw [h.entry_kernel ⟨va, _, hup⟩ (tableIndex_lt va _)] at hlinks ⊢
  exact .down hup hlinks

/-- Below the PML4, the upper half of an address space is that of the
kernel. -/
theorem upper_reaches (hroot : Rooted pml4 w) (hva : 256 ≤ tableIndex va 4)
    {level t : ℕ} (hreach : ReachesIn s pml4 va level t) :
    (level = 4 ∧ t = pml4) ∨ ReachesIn s₀ kernelSpace va level t := by
  refine hreach.invariant (I := fun level t => (level = 4 ∧ t = pml4) ∨
    ReachesIn s₀ kernelSpace va level t) (.inl ⟨rfl, rfl⟩) ?_
  rintro level t (⟨hlevel, rfl⟩ | hup) hlinks
  · obtain rfl : level = 3 := Nat.succ.inj hlevel
    have hentry := (useRule_upper_iff hva).mp
      (h.layout.labelled _ _ _ hroot (tableIndex_lt va 4)) hlinks.1
    rw [hentry] at hlinks ⊢
    exact .inr (.down .root hlinks)
  · rw [h.entry_kernel ⟨va, _, hup⟩ (tableIndex_lt va _)] at hlinks ⊢
    exact .inr (.down hup hlinks)

theorem leafOf_upper (hroot : Rooted pml4 w) (hva : 256 ≤ tableIndex va 4)
    {leaf : ℕ × PageTableEntry} (hleaf : leafOf s.mem pml4 va = some leaf) :
    leafOf s₀.mem kernelSpace va = some leaf := by
  obtain ⟨level, e⟩ := leaf
  obtain ⟨t, hreach, hpos, rfl, hpresent, hlast⟩ :=
    Reaches.root.exists_leaf hleaf
  obtain ⟨level, rfl⟩ := Nat.exists_eq_succ_of_ne_zero hpos.ne'
  rcases h.upper_reaches hroot hva hreach with ⟨hlevel, -⟩ | hkernel
  · rw [hlevel] at hlast
    exact Bool.noConfusion (show false = true from hlast)
  · rw [h.entry_kernel ⟨va, _, hkernel⟩ (tableIndex_lt va _)]
      at hpresent hlast ⊢
    exact hkernel.lookup_eq.trans (lookup_of_leaf hpresent hlast)

theorem kind_of_mem_userFrames (hkernel : KernelMappings stack kernelSpace s₀)
    (hroot : Rooted pml4 w) {f : ℕ} (hf : f ∈ userFrames s.mem pml4) :
    w.kind (f * frameSize) = some (.page pml4) := by
  obtain ⟨va, t, htranslate, huser, rfl⟩ := hf
  obtain ⟨⟨level, e⟩, hleaf, rfl⟩ := Option.map_eq_some_iff.mp htranslate
  have huser' : e.flags.contains userAccessible = true := huser
  rcases Nat.lt_or_ge (tableIndex va 4) 256 with hlower | hupper
  · obtain ⟨rfl, hkind⟩ := h.layout.leafOf_lower hroot hlower hleaf
    rw [userAccessible, e.flags_contains_bit (by omega) (by omega)] at huser'
    rw [if_pos huser'] at hkind
    have haligned := e.physAddr_aligned
    have hframe : (translateBy va (1, e)).phys / frameSize * frameSize =
        e.physAddr.toNat := by
      rw [translateBy]
      dsimp only
      rw [leafSize_one]
      unfold frameSize at haligned ⊢
      omega
    rw [hframe]
    exact hkind
  · have hno := hkernel.supervisor va _ hupper (h.leafOf_upper hroot hupper hleaf)
    rw [huser'] at hno
    cases hno

theorem kind_of_mem_tableFrames (hroot : pml4 = kernelSpace ∨ Rooted pml4 w)
    {f : ℕ} (hf : f ∈ tableFrames s.mem pml4) :
    ∃ r, w.kind (f * frameSize) = some r ∧ ∀ owner, r ≠ .page owner := by
  obtain ⟨t, ⟨va, level, hreach⟩, rfl⟩ := hf
  have hkernel : TableOf s₀.mem kernelSpace t →
      ∃ r, w.kind t = some r ∧ ∀ owner, r ≠ .page owner :=
    fun ht => ⟨_, h.boot _ _ (Labelling.kind_split_left ht), fun _ => nofun⟩
  obtain ⟨r, hkind, hno⟩ :
      ∃ r, w.kind t = some r ∧ ∀ owner, r ≠ .page owner := by
    rcases hroot with rfl | hroot
    · exact hkernel ⟨va, level, h.kernel_reaches hreach⟩
    · rcases Nat.lt_or_ge (tableIndex va 4) 256 with hlower | hupper
      · exact ⟨_, h.layout.kind_of_reaches_lower hroot hlower hreach,
          fun _ => nofun⟩
      · rcases h.upper_reaches hroot hupper hreach with ⟨-, rfl⟩ | hup
        · exact ⟨_, hroot, fun _ => nofun⟩
        · exact hkernel ⟨va, level, hup⟩
  refine ⟨r, ?_, hno⟩
  rw [Nat.div_mul_cancel (Nat.dvd_of_mod_eq_zero (h.layout.aligned hkind)),
    hkind]

end Owned

end Uses

/-! ## One address space -/

/-- The frame that is taken for the PML4 of the next address space. -/
def newSpace (s : Physical) : Option ℕ :=
  ((allocErased ProcessError.pmAllocFailed).eval s).1.toOption

/-- Building an address space puts new frames to use.  The PML4 is one of
them, also if building fails afterwards. -/
def BuildsOwned (stack : BootStack) (kernelSpace : ℕ) (s₀ : Physical)
    (build : Prog Physical ProcessError UserImage) : Prop :=
  ∀ w s, Owned stack kernelSpace s₀ w s → ∃ w', w ≤ w' ∧
    Owned stack kernelSpace s₀ w' (build.eval s).2 ∧
    (∀ pml4, newSpace s = some pml4 → w.kind pml4 = none ∧ Rooted pml4 w') ∧
    ∀ image, (build.eval s).1 = .ok image →
      newSpace s = some image.pml4Phys

section Builds

variable {stack : BootStack} {kernelSpace : ℕ} {s₀ : Physical}

theorem buildsOwned_of_evolves
    {rest : ℕ → Prog Physical ProcessError UserImage}
    (hrest : ∀ space, Evolves (Layout (useRule s₀.mem kernelSpace)) False
      (fun w _ => Rooted space w) (rest space)
      (fun image _ _ => image.pml4Phys = space)) :
    BuildsOwned stack kernelSpace s₀
      (allocUserAddressSpace stack kernelSpace >>= rest) := by
  intro w s howned
  have hprogram : allocUserAddressSpace stack kernelSpace >>= rest =
      (allocErased ProcessError.pmAllocFailed >>= fun space =>
        fillAddressSpace stack kernelSpace space >>= rest) := by
    rw [← bind_assoc]
    rfl
  rw [hprogram]
  rcases eval_allocErased ProcessError.pmAllocFailed s with
    ⟨heval, -⟩ | ⟨space, s₁, heval, htake⟩
  · have hnone : newSpace s = none := by rw [newSpace, heval]; rfl
    rw [Prog.eval_bind, heval, hnone]
    exact ⟨w, le_rfl, howned, fun _ h => (nomatch h), fun _ h => (nomatch h)⟩
  · have hsome : newSpace s = some space := by rw [newSpace, heval]; rfl
    have hfree := howned.layout.kind_eq_none htake.free
    have hle := Labelling.le_assign (.table space 4) hfree
    have hbuild : Evolves (Layout (useRule s₀.mem kernelSpace)) False
        (fun w _ => Rooted space w ∧ BootUses stack kernelSpace w)
        (fillAddressSpace stack kernelSpace space >>= rest)
        (fun image _ _ => image.pml4Phys = space) := by
      refine Evolves.bind (fillAddressSpace_uses stack) fun space' => ?_
      rintro w s hlayout ⟨rfl, hroot⟩
      exact hrest space' w s hlayout hroot
    obtain ⟨w', hle', hlayout, himage, -⟩ := hbuild
      (w.assign space (.table space 4)) s₁
      (howned.layout.takes_assign htake fun i => useRule_unused 4 i)
      ⟨w.kind_assign_self space _,
        monotone_bootUses stack kernelSpace hle howned.uses⟩
    rw [Prog.eval_bind_of_eq_ok heval, hsome]
    refine ⟨w', hle.trans hle', ⟨hlayout, (howned.boot.trans hle).trans hle',
      monotone_bootUses stack kernelSpace (hle.trans hle') howned.uses⟩, ?_, ?_⟩
    · rintro pml4 ⟨⟩
      exact ⟨hfree, hle' _ _ (w.kind_assign_self space _)⟩
    · intro image hok
      rw [himage image hok]

theorem buildFlat_owned (codePayload : List Byte) :
    BuildsOwned stack kernelSpace s₀
      (buildFlat stack kernelSpace codePayload) :=
  buildsOwned_of_evolves fun space =>
    Evolves.bind ((loads_uses space).loadFlatPayload _ _ _) fun _ =>
      Evolves.bind ((loads_uses space).mapUserStack _ _) fun _ =>
        Evolves.pure _ fun _ _ _ => rfl

theorem buildElf_owned {elfBytes : List Byte} {image : Elf64Image}
    (hparse : parse elfBytes = .ok image) :
    BuildsOwned stack kernelSpace s₀ (buildElf stack kernelSpace image) := by
  obtain ⟨-, hplaced⟩ := parse_ok hparse
  exact buildsOwned_of_evolves fun space =>
    Evolves.bind ((loads_uses space).loadSegments hplaced) fun _ =>
      Evolves.bind ((loads_uses space).mapUserStack _ _) fun _ =>
        Evolves.pure _ fun _ _ _ => rfl

end Builds

/-! ## Runs -/

/-- A system with the PML4s of all address spaces that have been built in it,
the last one first. -/
structure SpawnLog where
  sys : System
  spaces : List ℕ

def System.newSpace (sys : System) : Option ℕ :=
  (findFreeSlot sys.processes).bind fun _ => IsoLightK0.newSpace sys.phys

/-- The PML4 that a call takes, also if it then fails. -/
def SpawnCall.newSpace (sys : System) : SpawnCall → Option ℕ
  | .flat _ => sys.newSpace
  | .elf elfBytes =>
    match parse elfBytes with
    | .error _ => none
    | .ok _ => sys.newSpace

def loggedStep (stack : BootStack) (kernelSpace : ℕ) (log : SpawnLog)
    (call : SpawnCall) : Option (Except ProcessError ProcessId × SpawnLog) :=
  (spawnStep stack kernelSpace log.sys call).map fun outcome =>
    (outcome.1, ⟨outcome.2, (call.newSpace log.sys).toList ++ log.spaces⟩)

theorem exists_loggedRun {stack : BootStack} {kernelSpace : ℕ}
    {sys sys' : System}
    {history : List (SpawnCall × Except ProcessError ProcessId)}
    (hrun : Run (spawnStep stack kernelSpace) sys history sys') :
    ∃ spaces, Run (loggedStep stack kernelSpace) ⟨sys, []⟩ history
      ⟨sys', spaces⟩ := by
  induction hrun with
  | start => exact ⟨[], .start⟩
  | @next _ s s' call r _ hstep ih =>
    obtain ⟨spaces, hlogged⟩ := ih
    have hnext : loggedStep stack kernelSpace ⟨s, spaces⟩ call =
        some (r, ⟨s', (call.newSpace s).toList ++ spaces⟩) := by
      rw [loggedStep, hstep]
      rfl
    exact ⟨_, .next hlogged hnext⟩

/-- Every address space has its own PML4, and all frames agree with their
uses. -/
structure Separated (stack : BootStack) (kernelSpace : ℕ) (s₀ : Physical)
    (w : Labelling FrameUse) (log : SpawnLog) : Prop where
  owned : Owned stack kernelSpace s₀ w log.sys.phys
  rooted : ∀ pml4 ∈ log.spaces, Rooted pml4 w
  logged : ∀ id process, log.sys.processes id = some process →
    process.pml4Phys ∈ log.spaces
  distinct : ∀ id id' process process', id ≠ id' →
    log.sys.processes id = some process →
    log.sys.processes id' = some process' →
      process.pml4Phys ≠ process'.pml4Phys

section Runs

variable {stack : BootStack} {kernelSpace : ℕ} {s₀ : Physical}
  {w : Labelling FrameUse}

/-- What both spawn functions have in common keeps the separation. -/
theorem Separated.spawnWith {sys : System} {spaces : List ℕ}
    (h : Separated stack kernelSpace s₀ w ⟨sys, spaces⟩)
    {build : Prog Physical ProcessError UserImage}
    (hbuild : BuildsOwned stack kernelSpace s₀ build) :
    ∃ w', Separated stack kernelSpace s₀ w'
      ⟨(spawnWith build sys).2, sys.newSpace.toList ++ spaces⟩ := by
  unfold IsoLightK0.spawnWith Platform.spawnWith System.newSpace
  cases hslot : findFreeSlot sys.processes with
  | none => exact ⟨w, h⟩
  | some slot =>
    obtain ⟨w', hle, howned, hnew, himage⟩ := hbuild w sys.phys h.owned
    have hspaces : ∀ pml4 ∈ (newSpace sys.phys).toList ++ spaces,
        Rooted pml4 w' := by
      intro pml4 hmem
      rcases List.mem_append.mp hmem with htaken | hold
      · exact (hnew pml4 (Option.mem_toList.mp htaken)).2
      · exact hle _ _ (h.rooted pml4 hold)
    have hlogged : ∀ id process, sys.processes id = some process →
        process.pml4Phys ∈ (newSpace sys.phys).toList ++ spaces :=
      fun id process hprocess =>
        List.mem_append_right _ (h.logged id process hprocess)
    refine ⟨w', ?_⟩
    rcases hrun : build.eval sys.phys with ⟨e | image, phys⟩
    · rw [hrun] at howned
      exact ⟨howned, hspaces, hlogged, h.distinct⟩
    · rw [hrun] at howned himage
      have htaken := himage image rfl
      -- the PML4 of the new process had no use before, those of the others had
      have hfresh : ∀ id process, sys.processes id = some process →
          process.pml4Phys ≠ image.pml4Phys := by
        intro id process hprocess heq
        have hold := h.rooted _ (h.logged id process hprocess)
        rw [Rooted, heq, (hnew _ htaken).1] at hold
        cases hold
      refine ⟨howned, hspaces, ?_, ?_⟩
      · intro id process hprocess
        dsimp only at hprocess
        split at hprocess
        · cases hprocess
          exact List.mem_append_left _ (Option.mem_toList.mpr htaken)
        · exact hlogged id process hprocess
      · intro id id' process process' hne hprocess hprocess'
        dsimp only at hprocess hprocess'
        split at hprocess
        · rename_i hid
          cases hprocess
          rw [if_neg (hid ▸ hne.symm)] at hprocess'
          exact (hfresh id' process' hprocess').symm
        · split at hprocess'
          · cases hprocess'
            exact hfresh id process hprocess
          · exact h.distinct id id' process process' hne hprocess hprocess'

theorem Separated.step {log log' : SpawnLog}
    (h : Separated stack kernelSpace s₀ w log) {call : SpawnCall}
    {r : Except ProcessError ProcessId}
    (hstep : loggedStep stack kernelSpace log call = some (r, log')) :
    ∃ w', Separated stack kernelSpace s₀ w' log' := by
  obtain ⟨outcome, hspawn, hlog⟩ := Option.map_eq_some_iff.mp hstep
  cases hlog
  cases call with
  | flat codePayload =>
    cases hspawn
    exact h.spawnWith (buildFlat_owned codePayload)
  | elf elfBytes =>
    cases hspawn
    unfold SpawnCall.newSpace spawnElf
    dsimp only
    cases hparse : parse elfBytes with
    | error e =>
      rw [Platform.spawnElf_of_error _ hparse]
      exact ⟨w, h⟩
    | ok image =>
      rw [Platform.spawnElf_of_ok _ hparse]
      exact h.spawnWith (buildElf_owned hparse)

/-- A run from a system without processes keeps the uses of all frames. -/
theorem KernelMappings.separated_run {sys : System}
    (h : KernelMappings stack kernelSpace sys.phys)
    (hreserved : stack.Reserved sys.phys)
    (hempty : ∀ id, sys.processes id = none)
    {history : List (SpawnCall × Except ProcessError ProcessId)}
    {log : SpawnLog}
    (hrun : Run (loggedStep stack kernelSpace) ⟨sys, []⟩ history log) :
    ∃ w, Separated stack kernelSpace sys.phys w log := by
  refine hrun.invariant
    (I := fun log => ∃ w, Separated stack kernelSpace sys.phys w log)
    ⟨_, ⟨h.layout, le_rfl, h.bootUses hreserved⟩, ?_, ?_, ?_⟩
    fun _ _ _ _ ⟨_, h⟩ hstep => h.step hstep
  · exact fun _ hspace => (nomatch hspace)
  · intro id process hprocess
    rw [hempty id] at hprocess
    cases hprocess
  · intro id _ process _ _ hprocess
    rw [hempty id] at hprocess
    cases hprocess

end Runs

/-- After any run of spawn calls the frames of the user pages of a process are
its own. -/
structure Isolated (stack : BootStack) (kernelSpace : ℕ) (log : SpawnLog) :
    Prop where
  processes : ∀ id id' process process', id ≠ id' →
    log.sys.processes id = some process →
    log.sys.processes id' = some process' →
      ∀ f ∈ userFrames log.sys.phys.mem process.pml4Phys,
        f ∉ userFrames log.sys.phys.mem process'.pml4Phys
  tables : ∀ id process, log.sys.processes id = some process →
    ∀ pml4 ∈ kernelSpace :: log.spaces,
      ∀ f ∈ userFrames log.sys.phys.mem process.pml4Phys,
        f ∉ tableFrames log.sys.phys.mem pml4
  stack : ∀ id process, log.sys.processes id = some process →
    ∀ f ∈ userFrames log.sys.phys.mem process.pml4Phys, f ∉ stack.frames

theorem Separated.isolated {stack : BootStack} {kernelSpace : ℕ}
    {s₀ : Physical} {w : Labelling FrameUse} {log : SpawnLog}
    (h : Separated stack kernelSpace s₀ w log)
    (hkernel : KernelMappings stack kernelSpace s₀) :
    Isolated stack kernelSpace log := by
  have hpage : ∀ {id process f}, log.sys.processes id = some process →
      f ∈ userFrames log.sys.phys.mem process.pml4Phys →
        w.kind (f * frameSize) = some (.page process.pml4Phys) :=
    fun hprocess hf => h.owned.kind_of_mem_userFrames hkernel
      (h.rooted _ (h.logged _ _ hprocess)) hf
  refine ⟨?_, ?_, ?_⟩
  · intro id id' process process' hne hprocess hprocess' f hf hf'
    have hkind := hpage hprocess hf
    rw [hpage hprocess' hf'] at hkind
    exact h.distinct id id' process process' hne hprocess hprocess'
      (FrameUse.page.inj (Option.some.inj hkind)).symm
  · intro id process hprocess pml4 hpml4 f hf hf'
    have hroot : pml4 = kernelSpace ∨ Rooted pml4 w :=
      (List.mem_cons.mp hpml4).imp_right (h.rooted pml4)
    obtain ⟨r, hkind, hno⟩ := h.owned.kind_of_mem_tableFrames hroot hf'
    rw [hpage hprocess hf] at hkind
    exact hno _ (Option.some.inj hkind).symm
  · intro id process hprocess f hf hstack
    have hkind := h.owned.uses.stack _ hstack
    rw [hpage hprocess hf] at hkind
    cases hkind

/-- Over any run of spawn calls from a system without processes, the user pages
of the processes are isolated. -/
theorem spawn_run_isolated {stack : BootStack} {kernelSpace : ℕ}
    {sys : System} (hkernel : KernelMappings stack kernelSpace sys.phys)
    (hreserved : stack.Reserved sys.phys)
    (hempty : ∀ id, sys.processes id = none)
    {history : List (SpawnCall × Except ProcessError ProcessId)}
    {log : SpawnLog}
    (hrun : Run (loggedStep stack kernelSpace) ⟨sys, []⟩ history log) :
    (∀ id process, log.sys.processes id = some process →
      process.pml4Phys ∈ log.spaces) ∧ Isolated stack kernelSpace log := by
  obtain ⟨w, h⟩ := hkernel.separated_run hreserved hempty hrun
  exact ⟨h.logged, h.isolated hkernel⟩

theorem bootSystem_kernelMappings :
    KernelMappings linkedStack 0x180000 bootSystem.phys := by
  have habsent : ∀ t va level, x86Format.present
      (entryAt bootSystem.phys.mem t (tableIndex va level)) = false := by
    intro t va level
    have hunused : entryAt bootSystem.phys.mem t (tableIndex va level) =
        .unused := entryAt_erased (tableIndex_lt va level) fun _ _ => rfl
    rw [hunused]
    exact not_present_unused
  have htable : ∀ t, TableOf bootSystem.phys.mem 0x180000 t →
      t = 0x180000 := by
    rintro t ⟨va, level, hreach⟩
    refine hreach.invariant (I := fun _ t => t = 0x180000) rfl ?_
    intro level t _ hlinks
    rw [Format.Links, habsent] at hlinks
    exact absurd hlinks.1 Bool.false_ne_true
  refine ⟨by decide, ?_, ?_, ?_⟩
  · intro t ht
    rw [htable t ht]
    rintro ⟨-, -, hfree⟩
    exact absurd hfree (by decide)
  · intro t ht
    rw [htable t ht]
    decide
  · intro va leaf _ hleaf
    rw [leafOf, lookup_of_absent (habsent _ _ _)] at hleaf
    cases hleaf

/-- Two processes on the sample system. -/
theorem spawn_run_isolated_halt :
    ∃ log first second, Run (loggedStep linkedStack 0x180000) ⟨bootSystem, []⟩
        [(.flat haltPayload, .ok secondSlot), (.flat haltPayload, .ok firstSlot)]
        log ∧
      log.sys.processes firstSlot = some first ∧
      log.sys.processes secondSlot = some second ∧
      Isolated linkedStack 0x180000 log ∧
      ∀ f ∈ userFrames log.sys.phys.mem first.pml4Phys,
        f ∉ userFrames log.sys.phys.mem second.pml4Phys := by
  obtain ⟨sys, first, second, hrun, hfirst, hsecond⟩ :=
    spawnFlat_twice bootSystem_reserved bootSystem_room
  obtain ⟨spaces, hlogged⟩ := exists_loggedRun hrun
  obtain ⟨-, hisolated⟩ := spawn_run_isolated bootSystem_kernelMappings
    bootSystem_reserved (fun _ => rfl) hlogged
  exact ⟨⟨sys, spaces⟩, first, second, hlogged, hfirst, hsecond, hisolated,
    hisolated.processes _ _ _ _ (by decide) hfirst hsecond⟩

end IsoLightK0
