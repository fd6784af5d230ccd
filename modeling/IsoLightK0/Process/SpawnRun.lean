import IsoLightK0.Process.BootStack
import IsoLightK0.Support.Runs

/-!
# Runs of spawn calls

Whatever a spawn call loads, the boot stack stays mapped in the address space
it has built, and the frames of the boot stack stay reserved for the next one.
A flat program that leaves enough room is always loaded.
-/

namespace IsoLightK0

open Bytes Triples Worlds Runs

namespace BootStack

variable (stack : BootStack)

/-- The boot stack is mapped in the tree of tables at `pml4`. -/
def MappedIn (pml4 : ℕ) (s : Physical) : Prop :=
  ∃ w, UserSpace pml4 w s ∧ stack.Mapped 64 w

/-- What building an address space from `s` does to the boot stack; with
`total` it succeeds and leaves room for `m` frames. -/
structure Builds (total : Prop) (m : ℕ)
    (build : Prog Physical ProcessError UserImage) (s : Physical) : Prop where
  reserved : stack.Reserved (build.eval s).2
  mapped : ∀ image, (build.eval s).1 = .ok image →
    stack.MappedIn image.pml4Phys (build.eval s).2
  returns : total → ∃ image, (build.eval s).1 = .ok image ∧
    (build.eval s).2.allocator.Room m

variable {stack} {total : Prop} {m n : ℕ} {s : Physical}

variable {kernelSpace : ℕ}

/-- What follows on a new address space, if it keeps the tree of tables, keeps
the boot stack in it. -/
theorem builds_of_evolves {rest : ℕ → Prog Physical ProcessError UserImage}
    (hreserved : stack.Reserved s) (hroom : s.allocator.Room n)
    (htotal : total → 193 ≤ n)
    (hrest : ∀ space, Evolves (UserSpace space) total
      (Pages (RegionPath stack.bottom 64) (n - 193)) (rest space)
      (fun image _ s => image.pml4Phys = space ∧ s.allocator.Room m)) :
    stack.Builds total m (allocUserAddressSpace stack kernelSpace >>= rest)
      s := by
  rcases stack.allocUserAddressSpace_spec kernelSpace hreserved hroom htotal with
    ⟨e, s', heval, hreserved', hno⟩ |
      ⟨space, w, s', heval, hspace, ⟨hdata, hmapped⟩, hpages⟩
  · have hrun : (allocUserAddressSpace stack kernelSpace >>= rest).eval s =
        (.error e, s') := by
      rw [Prog.eval_bind, heval]
    constructor
    · rw [hrun]
      exact hreserved'
    · intro image himage
      rw [hrun] at himage
      cases himage
    · intro hreturn
      exact (hno hreturn).elim
  · have hrun : (allocUserAddressSpace stack kernelSpace >>= rest).eval s =
        (rest space).eval s' := by
      rw [Prog.eval_bind, heval]
    obtain ⟨w', hle, hspace', hpost, hret⟩ := hrest space w s' hspace hpages
    constructor
    · rw [hrun]
      exact stack.reserved_of_data hspace' (stack.monotone_data hle hdata)
    · intro image himage
      rw [hrun] at himage ⊢
      rw [(hpost image himage).1]
      exact ⟨w', hspace', stack.monotone_mapped 64 hle hmapped⟩
    · intro hreturn
      rw [hrun]
      obtain ⟨image, himage⟩ := hret hreturn
      exact ⟨image, himage, (hpost image himage).2⟩

theorem toNat_userStackBottom : (defaultUserStackTop -
    BitVec.ofNat 64 defaultUserStackSize).toNat = 0x7FFFFFFEF000 := by
  decide

/-- A region between the boot stack and the stack of the process. -/
structure RegionFits (stack : BootStack) (base : BitVec 64) (k : ℕ) :
    Prop where
  user : UserRegion base k
  above : stack.bottom.toNat + 262144 ≤ base.toNat
  below : base.toNat + k * pageSize ≤
    (defaultUserStackTop - BitVec.ofNat 64 defaultUserStackSize).toNat

namespace RegionFits

variable {base : BitVec 64} {k : ℕ}

theorem vacant (h : RegionFits stack base k) :
    RegionVacant (RegionPath stack.bottom 64) base k := by
  have habove := h.above
  refine h.user.vacant fun path hpath =>
    stack.userRegion.pathOutside (Or.inl ?_) hpath
  unfold pageSize
  omega

theorem stack_vacant (h : RegionFits stack base k) :
    RegionVacant (fun path => RegionPath stack.bottom 64 path ∨
        RegionPath base k path)
      (defaultUserStackTop - BitVec.ofNat 64 defaultUserStackSize)
      (defaultUserStackSize / pageSize) := by
  have hregion : UserRegion
      (defaultUserStackTop - BitVec.ofNat 64 defaultUserStackSize)
      (defaultUserStackSize / pageSize) := ⟨by decide, by decide⟩
  have hbound := stack.below_4gib
  refine hregion.vacant fun path hpath => ?_
  rcases hpath with hboot | hcode
  · refine stack.userRegion.pathOutside (Or.inl ?_) hboot
    rw [toNat_userStackBottom]
    unfold pageSize
    omega
  · exact h.user.pathOutside (.inl h.below) hcode

end RegionFits

/-! ## Flat programs -/

def flatPages (codePayload : List Byte) : ℕ :=
  (codePayload.length + (pageSize - 1)) / pageSize

/-- What makes loading a flat program succeed with `n` frames: the boot stack
lies below the program, which is neither empty nor larger than 1 GiB. -/
structure FlatFits (stack : BootStack) (codePayload : List Byte) (n : ℕ) :
    Prop where
  below_entry : stack.bottom.toNat + 262144 ≤ defaultUserEntry.toNat
  nonempty : 0 < codePayload.length
  length_le : codePayload.length ≤ 2 ^ 30
  room : 257 + 4 * flatPages codePayload ≤ n

namespace FlatFits

variable {codePayload : List Byte}

theorem flatPages_pos (h : FlatFits stack codePayload n) :
    0 < flatPages codePayload := by
  have hpos := h.nonempty
  unfold flatPages pageSize
  omega

theorem flatPages_le (h : FlatFits stack codePayload n) :
    flatPages codePayload ≤ 2 ^ 18 := by
  have hlen := h.length_le
  unfold flatPages pageSize
  omega

theorem toNat_defaultUserEntry : defaultUserEntry.toNat = 0x400000 := by
  decide

theorem userRegion (h : FlatFits stack codePayload n) :
    UserRegion defaultUserEntry (flatPages codePayload) := by
  have hle := h.flatPages_le
  refine ⟨by decide, ?_⟩
  rw [toNat_defaultUserEntry]
  unfold pageSize
  omega

theorem regionFits (h : FlatFits stack codePayload n) :
    RegionFits stack defaultUserEntry (flatPages codePayload) := by
  have hle := h.flatPages_le
  refine ⟨h.userRegion, h.below_entry, ?_⟩
  rw [toNat_defaultUserEntry, toNat_userStackBottom]
  unfold pageSize
  omega

end FlatFits

theorem buildFlat_builds {codePayload : List Byte}
    (hreserved : stack.Reserved s) (hroom : s.allocator.Room n)
    (htotal : total → FlatFits stack codePayload n) :
    stack.Builds total (n - (257 + 4 * flatPages codePayload))
      (buildFlat stack kernelSpace codePayload) s := by
  have hspare : total → 257 + 4 * flatPages codePayload ≤ n :=
    fun hreturn => (htotal hreturn).room
  have hpages : (codePayload.length + (pageSize - 1)) / pageSize =
      flatPages codePayload := rfl
  have hsize : defaultUserStackSize / pageSize = 16 := by decide
  unfold buildFlat Platform.buildFlat
  refine builds_of_evolves hreserved hroom (fun hreturn => ?_) fun space => ?_
  · have hle := hspare hreturn
    omega
  · refine Evolves.bind (loadFlatPayload_evolves hpages fun hreturn => ?_)
      fun _ => Evolves.bind (mapUserStack_evolves fun hreturn => ?_)
        fun _ => Evolves.pure _ fun _ _ h => ⟨rfl, h.mono ?_⟩
    · have hle := hspare hreturn
      exact ⟨by decide, (htotal hreturn).flatPages_pos, by omega,
        (htotal hreturn).regionFits.vacant⟩
    · have hle := hspare hreturn
      exact ⟨by decide, by decide, by decide, by omega,
        (htotal hreturn).regionFits.stack_vacant⟩
    · omega

theorem buildElf_builds {elfBytes : List Byte} {image : Elf64Image}
    (hparse : parse elfBytes = .ok image) (hreserved : stack.Reserved s) :
    stack.Builds False 0 (buildElf stack kernelSpace image) s := by
  obtain ⟨-, hplaced⟩ := parse_ok hparse
  refine builds_of_evolves hreserved (BitmapFrameAllocator.room_zero _)
    False.elim fun space => ?_
  refine Evolves.bind (((loads_userSpace space).loadSegments hplaced).weaken
    (fun _ _ _ _ => Pages.of_true) fun _ _ _ h => h) fun _ => ?_
  exact Evolves.bind (mapUserStack_evolves False.elim)
    fun _ => Evolves.pure _ fun _ _ _ =>
      ⟨rfl, BitmapFrameAllocator.room_zero _⟩

end BootStack

inductive SpawnCall
  | flat (codePayload : List Byte)
  | elf (elfBytes : List Byte)

def spawnStep (stack : BootStack) (kernelSpace : ℕ) (sys : System) :
    SpawnCall → Option (Except ProcessError ProcessId × System)
  | .flat codePayload => some (spawnFlat stack kernelSpace codePayload sys)
  | .elf elfBytes => some (spawnElf stack kernelSpace elfBytes sys)

/-- Slot `id` holds a process whose address space maps the boot stack. -/
def BootStack.MappedFor (stack : BootStack) (sys : System) (id : ProcessId) :
    Prop :=
  ∃ process, sys.processes id = some process ∧
    stack.MappedIn process.pml4Phys sys.phys

section Spawn

variable {stack : BootStack} {kernelSpace : ℕ} {sys sys' : System}
  {build : Prog Physical ProcessError UserImage} {id : ProcessId}
  {history : List (SpawnCall × Except ProcessError ProcessId)}

theorem spawnWith_reserved {total : Prop} {m : ℕ}
    (hreserved : stack.Reserved sys.phys)
    (hbuild : stack.Builds total m build sys.phys) :
    stack.Reserved (spawnWith build sys).2.phys := by
  have hafter := hbuild.reserved
  unfold spawnWith Platform.spawnWith
  cases findFreeSlot sys.processes with
  | none => exact hreserved
  | some slot =>
    rcases hrun : build.eval sys.phys with ⟨e | image, phys⟩
    · rw [hrun] at hafter
      exact hafter
    · rw [hrun] at hafter
      exact hafter

theorem spawnWith_eq_ok (h : spawnWith build sys = (.ok id, sys')) :
    ∃ image, build.eval sys.phys = (.ok image, sys'.phys) ∧
      sys'.processes id = some (image.process id) := by
  unfold spawnWith Platform.spawnWith at h
  cases hslot : findFreeSlot sys.processes with
  | none =>
    rw [hslot] at h
    cases h
  | some slot =>
    rw [hslot] at h
    rcases hrun : build.eval sys.phys with ⟨e | image, phys⟩
    · rw [hrun] at h
      cases h
    · rw [hrun] at h
      cases h
      exact ⟨image, rfl, if_pos rfl⟩

theorem spawnWith_mapped {total : Prop} {m : ℕ}
    (hbuild : stack.Builds total m build sys.phys)
    (hspawn : spawnWith build sys = (.ok id, sys')) :
    stack.MappedFor sys' id := by
  obtain ⟨image, hrun, hprocess⟩ := spawnWith_eq_ok hspawn
  have hmapped := hbuild.mapped
  rw [hrun] at hmapped
  exact ⟨image.process id, hprocess, hmapped image rfl⟩

theorem spawnElf_eq_ok {elfBytes : List Byte}
    (h : spawnElf stack kernelSpace elfBytes sys = (.ok id, sys')) :
    ∃ image user, parse elfBytes = .ok image ∧
      (buildElf stack kernelSpace image).eval sys.phys =
        (.ok user, sys'.phys) ∧
      sys'.processes id = some (user.process id) := by
  unfold spawnElf at h
  cases hparse : parse elfBytes with
  | error e =>
    rw [Platform.spawnElf_of_error _ hparse] at h
    cases h
  | ok image =>
    rw [Platform.spawnElf_of_ok _ hparse] at h
    obtain ⟨user, hbuild⟩ := spawnWith_eq_ok h
    exact ⟨image, user, rfl, hbuild⟩

theorem spawnStep_spec {call : SpawnCall}
    {r : Except ProcessError ProcessId} (hreserved : stack.Reserved sys.phys)
    (hstep : spawnStep stack kernelSpace sys call = some (r, sys')) :
    stack.Reserved sys'.phys ∧ ∀ id, r = .ok id → stack.MappedFor sys' id := by
  have hwith : ∀ {build m}, stack.Builds False m build sys.phys →
      spawnWith build sys = (r, sys') → stack.Reserved sys'.phys ∧
        ∀ id, r = .ok id → stack.MappedFor sys' id := by
    intro build m hbuild hrun
    have hkept := spawnWith_reserved hreserved hbuild
    rw [hrun] at hkept
    refine ⟨hkept, ?_⟩
    rintro id rfl
    exact spawnWith_mapped hbuild hrun
  cases call with
  | flat codePayload =>
    exact hwith (BootStack.buildFlat_builds hreserved
      (BitmapFrameAllocator.room_zero _) False.elim) (Option.some.inj hstep)
  | elf elfBytes =>
    have hrun : spawnElf stack kernelSpace elfBytes sys = (r, sys') :=
      Option.some.inj hstep
    unfold spawnElf at hrun
    cases hparse : parse elfBytes with
    | error e =>
      rw [Platform.spawnElf_of_error _ hparse] at hrun
      cases hrun
      exact ⟨hreserved, fun _ h => (nomatch h)⟩
    | ok image =>
      rw [Platform.spawnElf_of_ok _ hparse] at hrun
      exact hwith (BootStack.buildElf_builds hparse hreserved) hrun

theorem spawn_run_reserved (hreserved : stack.Reserved sys.phys)
    (hrun : Run (spawnStep stack kernelSpace) sys history sys') :
    stack.Reserved sys'.phys := by
  induction hrun with
  | start => exact hreserved
  | next _ hstep ih => exact (spawnStep_spec ih hstep).1

theorem spawn_run_mapped {call : SpawnCall}
    (hreserved : stack.Reserved sys.phys)
    (hrun : Run (spawnStep stack kernelSpace) sys
      ((call, .ok id) :: history) sys') : stack.MappedFor sys' id := by
  cases hrun with
  | next hprev hstep =>
    have hbefore := spawn_run_reserved hreserved hprev
    exact (spawnStep_spec hbefore hstep).2 id rfl

/-- A total build fills the free slot. -/
theorem spawnWith_returns {slot : ProcessId} {m : ℕ}
    (hslot : findFreeSlot sys.processes = some slot)
    (hbuild : stack.Builds True m build sys.phys) :
    ∃ sys' process, spawnWith build sys = (.ok slot, sys') ∧
      (sys'.processes = fun i =>
        if i = slot then some process else sys.processes i) ∧
      stack.Reserved sys'.phys ∧ sys'.phys.allocator.Room m := by
  obtain ⟨image, himage, hroom⟩ := hbuild.returns trivial
  have hreserved := hbuild.reserved
  rw [spawnWith, Platform.spawnWith, hslot]
  rcases hrun : build.eval sys.phys with ⟨e | image', phys⟩
  · rw [hrun] at himage
    cases himage
  · rw [hrun] at hreserved hroom
    exact ⟨_, _, rfl, rfl, hreserved, hroom⟩

theorem spawnFlat_returns {codePayload : List Byte} {n : ℕ} {slot : ProcessId}
    (hslot : findFreeSlot sys.processes = some slot)
    (hreserved : stack.Reserved sys.phys) (hroom : sys.phys.allocator.Room n)
    (hfits : BootStack.FlatFits stack codePayload n) :
    ∃ sys' process,
      spawnFlat stack kernelSpace codePayload sys = (.ok slot, sys') ∧
      (sys'.processes = fun i =>
        if i = slot then some process else sys.processes i) ∧
      stack.Reserved sys'.phys ∧
      sys'.phys.allocator.Room
        (n - (257 + 4 * BootStack.flatPages codePayload)) :=
  spawnWith_returns hslot
    (BootStack.buildFlat_builds hreserved hroom fun _ => hfits)

end Spawn

end IsoLightK0
