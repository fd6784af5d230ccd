import IsoLightK0.Aarch64.Permissions
import IsoLightK0.Process.Platform
import IsoLightK0.Process.SpawnRun

/-!
# Spawning on aarch64

`alloc_user_address_space` takes one frame for an address space, as on x86_64,
where an address space is one table.  On aarch64 it is an object of 27 pages,
so that the kernel's mappings are already copied to memory outside the frame.
A spawn call keeps to its frames only if it takes none.
-/

namespace IsoLightK0.Aarch64

open Bytes Triples Runs

inductive ProcessError
  | slotsFull
  | mmu (e : MmuError)
  | pmAllocFailed
  | badAddress
  | elf (e : ElfError)
  deriving DecidableEq, Repr

/-- A program on physical memory, which leaves no trace. -/
def onPhys {ε α : Type} (x : Prog Physical ε α) : Prog Machine ε α :=
  ExceptT.mk fun s => ((x.eval s.phys).1, { s with phys := (x.eval s.phys).2 })

theorem eval_onPhys {ε α : Type} (x : Prog Physical ε α) (s : Machine) :
    (onPhys x).eval s =
      ((x.eval s.phys).1, { s with phys := (x.eval s.phys).2 }) := rfl

def noteAlloc {ε : Type} (p : ℕ) : Prog Machine ε Unit :=
  modify fun s => { s with trace := .alloc p :: s.trace }

def allocErased {ε : Type} (e : ε) : Prog Machine ε ℕ := do
  let p ← onPhys (IsoLightK0.allocErased e)
  noteAlloc p
  pure p

def bootStackFlags : PageTableFlags :=
  (Flags.present.union Flags.writable).union Flags.noExecute

def platform : Platform Machine ProcessError where
  slotsFull := .slotsFull
  badAddress := .badAddress
  elf := .elf
  allocErased := Aarch64.allocErased .pmAllocFailed
  inheritKernelMappings := Aarch64.inheritKernelMappings
  stackFlags := bootStackFlags
  mapPage space virtAddr physAddr flags :=
    (Aarch64.mapPage space virtAddr physAddr flags).mapExit .mmu
  mapUserPage space virtAddr physAddr write :=
    (Aarch64.mapUserPage space virtAddr physAddr write).mapExit .mmu
  walkToPhys s space va := Aarch64.walkToPhys s.mem space va
  copyToPhys p bytes := onPhys (IsoLightK0.copyToPhys p bytes)

/-- One spawn call, with the boot stack from `bottom` to `top`. -/
def spawnStep (bottom top : BitVec 64) (kernelSpace : ℕ)
    (sys : SystemOver Machine) :
    SpawnCall → Except ProcessError ProcessId × SystemOver Machine
  | .flat codePayload =>
    platform.spawnFlat bottom top kernelSpace codePayload sys
  | .elf elfBytes => platform.spawnElf bottom top kernelSpace elfBytes sys

/-! ## What tables and frames keep -/

/-- Writes to address spaces keep `I`. -/
structure Unwritten (I : Machine → Prop) : Prop where
  written : ∀ s space addr bytes, I s → I (s.written space addr bytes)
  zeroed : ∀ s space table, I s → I (s.zeroed space table)

namespace Unwritten

variable {I : Machine → Prop} (h : Unwritten I)

include h

variable (space : ℕ)

theorem setDescriptor {ε : Type} (table index : ℕ) (d : BitVec 64) :
    Keeps I (Aarch64.setDescriptor space table index d : Prog Machine ε Unit) :=
  Keeps.modify fun s hs => h.written s _ _ _ hs

theorem inheritKernelMappings {ε : Type} (source : ℕ) :
    Keeps I (Aarch64.inheritKernelMappings space source :
      Prog Machine ε Unit) := by
  refine Keeps.foldRange _ _ fun _ _ => ?_
  exact Keeps.bind Keeps.get fun _ => h.setDescriptor _ _ _ _

theorem allocTable : Keeps I (Aarch64.allocTable space) := by
  refine Keeps.bind Keeps.get fun s => ?_
  refine Keeps.bind (Keeps.exitIf _ _) fun _ => ?_
  refine Keeps.bind (Keeps.modify fun s hs => h.written s _ _ _ hs) fun _ => ?_
  refine Keeps.bind (Keeps.modify fun s hs => h.zeroed s _ _ hs) fun _ => ?_
  exact Keeps.pure _

theorem nextTable (va : BitVec 64) (table level : ℕ) :
    Keeps I (Aarch64.nextTable space va table level) := by
  refine Keeps.bind Keeps.get fun s => ?_
  refine Keeps.ite ?_ (Keeps.pure _)
  refine Keeps.bind (h.allocTable space) fun _ => ?_
  exact Keeps.bind (h.setDescriptor _ _ _ _) fun _ => Keeps.pure _

theorem mapDesc (high : Bool) (va leaf : BitVec 64) :
    Keeps I (Aarch64.mapDesc space high va leaf) := by
  refine Keeps.bind (h.nextTable _ _ _ _) fun _ => ?_
  refine Keeps.bind (h.nextTable _ _ _ _) fun _ => ?_
  refine Keeps.bind (h.nextTable _ _ _ _) fun _ => ?_
  refine Keeps.bind Keeps.get fun _ => ?_
  exact Keeps.bind (Keeps.exitIf _ _) fun _ => h.setDescriptor _ _ _ _

omit h in
theorem liftDesc (d : Except MmuError (BitVec 64)) :
    Keeps I (Aarch64.liftDesc d) := by
  cases d with
  | error e => exact Keeps.throw e
  | ok d => exact Keeps.pure d

theorem mapPage (virtAddr physAddr : BitVec 64) (flags : PageTableFlags) :
    Keeps I (Aarch64.mapPage space virtAddr physAddr flags) := by
  refine Keeps.bind (Keeps.exitIf _ _) fun _ => ?_
  refine Keeps.bind (Keeps.exitIf _ _) fun _ => ?_
  exact Keeps.bind (liftDesc _) fun _ => h.mapDesc _ _ _ _

theorem mapUserPage (virtAddr physAddr : BitVec 64) (write : Bool) :
    Keeps I (Aarch64.mapUserPage space virtAddr physAddr write) := by
  refine Keeps.bind (Keeps.exitIf _ _) fun _ => ?_
  exact Keeps.bind (liftDesc _) fun _ => h.mapDesc _ _ _ _

theorem mapBootStackIdentity (bottom top : BitVec 64) (space : ℕ) :
    Keeps I (platform.mapBootStackIdentity bottom top space) :=
  Keeps.foldRange _ _ fun _ _ => Keeps.mapExit _ (h.mapPage _ _ _ _)

end Unwritten

def Machine.Recorded (event : Event) (s : Machine) : Prop :=
  event ∈ s.trace

theorem unwritten_recorded (event : Event) :
    Unwritten (Machine.Recorded event) where
  written _ _ _ _ hs := List.mem_cons_of_mem _ hs
  zeroed _ _ _ hs := List.mem_cons_of_mem _ hs

def Machine.HasAllocator (a : BitmapFrameAllocator) (s : Machine) : Prop :=
  s.phys.allocator = a

theorem unwritten_hasAllocator (a : BitmapFrameAllocator) :
    Unwritten (Machine.HasAllocator a) where
  written _ _ _ _ hs := hs
  zeroed _ _ _ hs := hs

theorem platform_recorded (event : Event) :
    platform.Preserves (Machine.Recorded event) := by
  have hwrites := unwritten_recorded event
  constructor
  · refine Keeps.bind (fun s hs => hs) fun p => ?_
    refine Keeps.bind (Keeps.modify fun s hs => ?_) fun _ => Keeps.pure _
    exact List.mem_cons_of_mem _ hs
  · exact fun space virtAddr physAddr write =>
      Keeps.mapExit _ (hwrites.mapUserPage _ _ _ _)
  · exact fun p bytes s hs => hs

/-! ## The first descriptor that is inherited -/

/-- The first entry of the upper root table, which lies in the page after the
one of the address space. -/
def firstInherited (space : ℕ) : Event :=
  .write space (ttbr1Root space) 8

theorem inheritKernelMappings_writes {ε : Type} (space source : ℕ)
    (s : Machine) :
    ((inheritKernelMappings space source :
      Prog Machine ε Unit).eval s).2.Recorded (firstInherited space) := by
  have hkeeps := unwritten_recorded (firstInherited space)
  have hrounds : tableEntries = 511 + 1 := rfl
  unfold inheritKernelMappings
  rw [hrounds]
  refine Keeps.after_foldRange 511 (fun _ _ => ?_) ?_
  · exact Keeps.bind Keeps.get fun _ => hkeeps.setDescriptor _ _ _ _
  · have hlength := length_wordToLe 8 (descriptorAt s.mem (ttbr1Root source) 0)
    rw [Prog.eval_get_bind, setDescriptor, eval_writeSpace]
    show firstInherited space ∈ Event.write space (ttbr1Root space + 8 * 0)
      (wordToLe 8 (descriptorAt s.mem (ttbr1Root source) 0)).length :: s.trace
    rw [hlength]
    exact List.mem_cons_self

variable {bottom top : BitVec 64} {kernelSpace : ℕ}

theorem eval_platform_allocErased {s : Machine} {p : ℕ}
    {a : BitmapFrameAllocator} (h : s.phys.allocator.alloc = some (p, a)) :
    platform.allocErased.eval s =
      (.ok p, ⟨⟨(s.mem.fill p frameSize 0).fill p frameSize 0, a⟩,
        .alloc p :: s.trace⟩) := by
  show (Aarch64.allocErased ProcessError.pmAllocFailed).eval s = _
  unfold Aarch64.allocErased
  rw [Prog.eval_bind, eval_onPhys, eval_allocErased_of_alloc _ h]
  rfl

/-- An address space is built with one frame, and descriptors are copied to
the page after it. -/
theorem allocUserAddressSpace_spec {s : Machine} {p : ℕ}
    {a : BitmapFrameAllocator} (h : s.phys.allocator.alloc = some (p, a)) :
    ((platform.allocUserAddressSpace bottom top kernelSpace).eval
        s).2.Recorded (firstInherited p) ∧
      ((platform.allocUserAddressSpace bottom top kernelSpace).eval
        s).2.HasAllocator a := by
  unfold Platform.allocUserAddressSpace
  rw [Prog.eval_bind, eval_platform_allocErased h]
  dsimp only
  have hrest : ∀ {I : Machine → Prop}, Unwritten I → ∀ _ : Unit,
      Keeps I (platform.mapBootStackIdentity bottom top p >>= fun _ =>
        pure p) := fun hwrites _ =>
    Keeps.bind (hwrites.mapBootStackIdentity _ _ _) fun _ => Keeps.pure _
  constructor
  · exact Keeps.after (hrest (unwritten_recorded _))
      (inheritKernelMappings_writes p kernelSpace _)
  · refine Keeps.after (hrest (unwritten_hasAllocator a)) ?_
    exact (unwritten_hasAllocator a).inheritKernelMappings p kernelSpace _ rfl

/-- Building an address space and what follows either finds no frame, or copies
a descriptor to the page after the frame. -/
theorem build_cases {rest : ℕ → Prog Machine ProcessError UserImage}
    (hrest : ∀ event space, Keeps (Machine.Recorded event) (rest space))
    (s : Machine) :
    (¬ s.phys.allocator.Room 1 ∧
      (platform.allocUserAddressSpace bottom top kernelSpace >>= rest).eval s =
        (.error .pmAllocFailed, s)) ∨
    (s.phys.allocator.Room 1 ∧ ∃ space,
      ((platform.allocUserAddressSpace bottom top kernelSpace >>=
        rest).eval s).2.Recorded (firstInherited space)) := by
  cases halloc : s.phys.allocator.alloc with
  | none =>
    have hroom : ¬ s.phys.allocator.Room 1 :=
      fun hroom => hroom.alloc_ne_none halloc
    have hnone : platform.allocErased.eval s = (.error .pmAllocFailed, s) := by
      show (Aarch64.allocErased ProcessError.pmAllocFailed).eval s = _
      unfold Aarch64.allocErased
      rw [Prog.eval_bind, eval_onPhys, eval_allocErased_of_not_room _ hroom]
    refine .inl ⟨hroom, ?_⟩
    unfold Platform.allocUserAddressSpace
    rw [Prog.eval_bind, Prog.eval_bind, hnone]
  | some taken =>
    obtain ⟨hrecorded, -⟩ := allocUserAddressSpace_spec halloc
    exact .inr ⟨BitmapFrameAllocator.room_of_alloc halloc, taken.1,
      Keeps.after (hrest _) hrecorded⟩

/-! ## Runs of spawn calls -/

/-- What is written as part of an address space lies in the frame that was
handed out for it, and no frame that is handed out later holds any of it. -/
structure Contained (trace : List Event) : Prop where
  within : ∀ space addr len earlier,
    .write space addr len :: earlier <:+ trace →
    .alloc space ∈ earlier ∧ space ≤ addr ∧ addr + len ≤ space + frameSize
  apart : ∀ frame earlier, .alloc frame :: earlier <:+ trace →
    ∀ space addr len, .write space addr len ∈ earlier →
      addr + len ≤ frame ∨ frame + frameSize ≤ addr

theorem contained_nil : Contained [] where
  within _ _ _ _ h := absurd (List.suffix_nil.mp h) (List.cons_ne_nil _ _)
  apart _ _ h := absurd (List.suffix_nil.mp h) (List.cons_ne_nil _ _)

theorem not_contained_of_firstInherited {space : ℕ} {trace : List Event}
    (h : firstInherited space ∈ trace) : ¬ Contained trace := by
  intro hcontained
  obtain ⟨later, earlier, hsplit⟩ := List.append_of_mem h
  have hsuffix : firstInherited space :: earlier <:+ trace :=
    ⟨later, hsplit.symm⟩
  obtain ⟨-, -, hend⟩ := hcontained.within _ _ _ _ hsuffix
  unfold ttbr1Root at hend
  omega

/-- The call returns before it takes a frame: every slot is in use, the file is
not an acceptable ELF file, or no frame is free. -/
def Stops (sys : SystemOver Machine) (call : SpawnCall) : Prop :=
  (∀ id, sys.processes id ≠ none) ∨
    (∃ elfBytes e, call = .elf elfBytes ∧ parse elfBytes = .error e) ∨
    ¬ sys.phys.phys.allocator.Room 1

theorem findFreeSlot_eq_none {processes : ProcessId → Option Process} :
    findFreeSlot processes = none ↔ ∀ id, processes id ≠ none := by
  unfold findFreeSlot
  rw [List.find?_eq_none]
  constructor
  · intro h id hnone
    apply h id (List.mem_finRange id)
    rw [hnone]
    rfl
  · intro h id _ hisNone
    exact h id (Option.isNone_iff_eq_none.mp hisNone)

/-- A program that takes a frame before anything else, and then copies a
descriptor to the page after it. -/
def LeavesFrame (build : Prog Machine ProcessError UserImage) : Prop :=
  ∀ s, (¬ s.phys.allocator.Room 1 ∧
      build.eval s = (.error .pmAllocFailed, s)) ∨
    (s.phys.allocator.Room 1 ∧
      ∃ space, (build.eval s).2.Recorded (firstInherited space))

theorem buildFlat_leavesFrame (bottom top : BitVec 64) (kernelSpace : ℕ)
    (codePayload : List Byte) :
    LeavesFrame (platform.buildFlat bottom top kernelSpace codePayload) := by
  refine build_cases fun event space => ?_
  have hkept := platform_recorded event
  refine Keeps.bind (hkept.loadFlatPayload _ _ _ _) fun _ => ?_
  exact Keeps.bind (hkept.mapUserStack _ _ _) fun _ => Keeps.pure _

theorem buildElf_leavesFrame (bottom top : BitVec 64) (kernelSpace : ℕ)
    (image : Elf64Image) :
    LeavesFrame (platform.buildElf bottom top kernelSpace image) := by
  refine build_cases fun event space => ?_
  have hkept := platform_recorded event
  refine Keeps.bind (hkept.loadSegments _ _ _) fun _ => ?_
  exact Keeps.bind (hkept.mapUserStack _ _ _) fun _ => Keeps.pure _

variable {build : Prog Machine ProcessError UserImage}

theorem LeavesFrame.spawnWith_stops (hbuild : LeavesFrame build)
    {sys : SystemOver Machine}
    (h : (∀ id, sys.processes id ≠ none) ∨ ¬ sys.phys.phys.allocator.Room 1) :
    (platform.spawnWith build sys).2 = sys := by
  unfold Platform.spawnWith
  cases hslot : findFreeSlot sys.processes with
  | none => rfl
  | some slot =>
    rcases hbuild sys.phys with ⟨-, heval⟩ | ⟨hroom, -⟩
    · dsimp only
      rw [heval]
    · rcases h with hfull | hnoroom
      · rw [findFreeSlot_eq_none.mpr hfull] at hslot
        cases hslot
      · exact (hnoroom hroom).elim

theorem LeavesFrame.spawnWith_records (hbuild : LeavesFrame build)
    {sys : SystemOver Machine} (hfree : ∃ id, sys.processes id = none)
    (hroom : sys.phys.phys.allocator.Room 1) :
    ∃ space, (platform.spawnWith build sys).2.phys.Recorded
      (firstInherited space) := by
  rcases hbuild sys.phys with ⟨hnoroom, -⟩ | ⟨-, space, hrecorded⟩
  · exact (hnoroom hroom).elim
  · refine ⟨space, ?_⟩
    unfold Platform.spawnWith
    cases hslot : findFreeSlot sys.processes with
    | none =>
      obtain ⟨id, hid⟩ := hfree
      exact (findFreeSlot_eq_none.mp hslot id hid).elim
    | some slot =>
      dsimp only
      rcases heval : build.eval sys.phys with ⟨e | image, memory⟩
      · rwa [heval] at hrecorded
      · rwa [heval] at hrecorded

variable {sys : SystemOver Machine} {call : SpawnCall}

theorem spawnStep_stops (h : Stops sys call) :
    (spawnStep bottom top kernelSpace sys call).2 = sys := by
  cases call with
  | flat codePayload =>
    refine (buildFlat_leavesFrame _ _ _ _).spawnWith_stops ?_
    rcases h with hfull | ⟨_, _, hcall, -⟩ | hnoroom
    · exact .inl hfull
    · cases hcall
    · exact .inr hnoroom
  | elf elfBytes =>
    rw [spawnStep]
    cases hparse : parse elfBytes with
    | error e => rw [platform.spawnElf_of_error hparse]
    | ok image =>
      rw [platform.spawnElf_of_ok hparse]
      refine (buildElf_leavesFrame _ _ _ _).spawnWith_stops ?_
      rcases h with hfull | ⟨_, _, hcall, herror⟩ | hnoroom
      · exact .inl hfull
      · cases hcall
        rw [hparse] at herror
        cases herror
      · exact .inr hnoroom

theorem spawnStep_records (h : ¬ Stops sys call) :
    ∃ space, (spawnStep bottom top kernelSpace sys call).2.phys.Recorded
      (firstInherited space) := by
  unfold Stops at h
  push Not at h
  obtain ⟨hfree, haccepted, hroom⟩ := h
  cases call with
  | flat codePayload =>
    exact (buildFlat_leavesFrame _ _ _ _).spawnWith_records hfree hroom
  | elf elfBytes =>
    rw [spawnStep]
    cases hparse : parse elfBytes with
    | error e => exact (haccepted elfBytes e rfl hparse).elim
    | ok image =>
      rw [platform.spawnElf_of_ok hparse]
      exact (buildElf_leavesFrame _ _ _ _).spawnWith_records hfree hroom

/-- In a run of spawn calls, address spaces are contained in their frames
exactly if each call stops before it takes one. -/
theorem spawn_run_contained_iff (bottom top : BitVec 64) (kernelSpace : ℕ)
    (phys : Physical) (processes : ProcessId → Option Process)
    (calls : List SpawnCall) :
    (∀ earlier, earlier <:+ calls →
      Contained (replay (spawnStep bottom top kernelSpace)
        ⟨⟨phys, []⟩, processes⟩ earlier).2.phys.trace) ↔
    ∀ call earlier, call :: earlier <:+ calls →
      Stops (replay (spawnStep bottom top kernelSpace)
        ⟨⟨phys, []⟩, processes⟩ earlier).2 call := by
  refine forall_replay_iff
    (I := fun sys : SystemOver Machine => sys.phys.trace = [])
    (P := fun sys => Contained sys.phys.trace) rfl ?_ ?_ ?_ calls
  · intro sys hempty
    rw [hempty]
    exact contained_nil
  · intro sys call hempty hstops
    rw [spawnStep_stops hstops]
    exact hempty
  · intro sys call _ hgoes
    obtain ⟨space, hrecorded⟩ := spawnStep_records hgoes
    exact not_contained_of_firstInherited hrecorded

/-- The frames below 0x4200_0000, where the kernel lies, are in use. -/
def highFrames : BitmapFrameAllocator where
  bitmap i := if i < 4224 then BitVec.allOnes 64 else 0
  freeCount := maxFrames - 4224 * 64
  nextFreeWord := 4224

def emptySystem : SystemOver Machine where
  phys := ⟨⟨fun _ => 0, highFrames⟩, []⟩
  processes _ := none

def waitPayload : List Byte := [0x7F, 0x20, 0x03, 0xD5]

theorem emptySystem_goes (codePayload : List Byte) :
    ¬ Stops emptySystem (.flat codePayload) := by
  have halloc : highFrames.alloc ≠ none := by decide
  obtain ⟨taken, htaken⟩ := Option.ne_none_iff_exists'.mp halloc
  rintro (hfull | ⟨_, _, hcall, -⟩ | hnoroom)
  · exact hfull ⟨0, by decide⟩ rfl
  · cases hcall
  · exact hnoroom (BitmapFrameAllocator.room_of_alloc htaken)

/-- The frame of the address space is at 0x4200_0000, its upper root table is
in the next page, and that page is the next frame to be handed out. -/
theorem spawned_wait_not_contained :
    ¬ Contained (spawnStep 0x40090000 0x400D0000 0x40100000 emptySystem
        (.flat waitPayload)).2.phys.trace ∧
      ∃ s, ((platform.allocUserAddressSpace 0x40090000 0x400D0000
          0x40100000).eval emptySystem.phys).2 = s ∧
        .write 0x42000000 0x42001000 8 ∈ s.trace ∧
        s.phys.allocator.alloc.map Prod.fst = some 0x42001000 := by
  obtain ⟨space, hrecorded⟩ := spawnStep_records (emptySystem_goes waitPayload)
  have hfirst : highFrames.alloc.map Prod.fst = some 0x42000000 := by decide
  have hnext : (highFrames.alloc.bind fun taken => taken.2.alloc).map
      Prod.fst = some 0x42001000 := by decide
  obtain ⟨⟨p, a⟩, halloc, rfl⟩ := Option.map_eq_some_iff.mp hfirst
  obtain ⟨hwritten, hallocator⟩ := allocUserAddressSpace_spec
    (s := emptySystem.phys) halloc
  rw [halloc] at hnext
  refine ⟨not_contained_of_firstInherited hrecorded, _, rfl, hwritten, ?_⟩
  rw [hallocator]
  exact hnext

end IsoLightK0.Aarch64
