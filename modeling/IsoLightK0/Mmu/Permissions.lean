import IsoLightK0.Mmu.Mapping
import IsoLightK0.Support.Runs

/-!
# Effective permissions of mapped pages

What may be done with a page after any sequence of `map_page` and
`map_user_page` calls on a new address space?  The hardware combines the bits
of all four entries on the way to the page, and `alloc_or_get_table` stores
every entry above the leaf as `PRESENT | WRITABLE | NO_EXECUTE`.  No page is
therefore accessible to the user or executable, whatever its leaf says.
-/

namespace IsoLightK0

open Bytes Triples Worlds Runs PageTableFlags

inductive MapCall
  | page (virtAddr physAddr : BitVec 64) (flags : PageTableFlags)
  | userPage (virtAddr physAddr : BitVec 64) (write : Bool)

namespace MapCall

def virtAddr : MapCall → BitVec 64
  | page va _ _ | userPage va _ _ => va

def physAddr : MapCall → BitVec 64
  | page _ pa _ | userPage _ pa _ => pa

def flags : MapCall → PageTableFlags
  | page _ _ flags => flags
  | userPage _ _ write => userPageFlags write

def program (pml4 : ℕ) : MapCall → Prog Physical MmuError Unit
  | page va pa flags => mapPage pml4 va pa flags
  | userPage va pa write => mapUserPage pml4 va pa write

def leaf (call : MapCall) : PageTableEntry :=
  .encode call.physAddr (call.flags.union present)

end MapCall

def mapStep (pml4 : ℕ) (s : Physical) (call : MapCall) :
    Option (Except MmuError Unit × Physical) :=
  some ((call.program pml4).eval s)

/-- `AddressSpace::new()` in a frame that the allocator does not hand out. -/
structure NewSpace where
  state : Physical
  pml4 : ℕ
  aligned : pml4 % frameSize = 0
  reserved : ¬ state.allocator.FreeAt pml4
  empty : ∀ i, i < tableEntries → entryAt state.mem pml4 i = .unused

namespace NewSpace

/-- Only the root is in use, and no page is mapped. -/
def world (S : NewSpace) : World where
  role p := if p = S.pml4 then some (.table []) else none
  leaves _ := none

theorem role_world {S : NewSpace} {p : ℕ} {r : Role}
    (h : S.world.role p = some r) : p = S.pml4 ∧ r = .table [] := by
  have hrole : (if p = S.pml4 then some (Role.table []) else none) = some r := h
  by_cases hp : p = S.pml4
  · rw [if_pos hp] at hrole
    cases hrole
    exact ⟨hp, rfl⟩
  · rw [if_neg hp] at hrole
    cases hrole

theorem space_world (S : NewSpace) :
    Space tableEntries False S.pml4 S.world S.state := by
  have habsent : ∀ {i}, i < tableEntries →
      (entryAt S.state.mem S.pml4 i).isPresent = false := by
    intro i hi
    rw [S.empty i hi]
    decide
  constructor
  · intro p
    constructor
    · intro hp
      exact (role_world hp).1
    · rintro rfl
      exact if_pos rfl
  · intro p r hp
    rw [(role_world hp).1]
    exact ⟨S.aligned, S.reserved⟩
  · intro t path i ht _ hi hpresent
    rw [(role_world ht).1, habsent hi.1] at hpresent
    cases hpresent
  · intro t i path ht
    cases (role_world ht).2
  · intro t path i ht hlen _ _
    cases (role_world ht).2
    cases hlen
  · intro path e hleaf
    cases hleaf

end NewSpace

theorem mapCall_evolves {root : ℕ} (call : MapCall) :
    Evolves (Space tableEntries False root) False (fun _ _ => True)
      (call.program root)
      (fun _ w _ => w.leaves (pagePath call.virtAddr) = some call.leaf) := by
  intro w s hspace _
  have hpre : Ledger w.leaves 0 w s ∧ LeadsToData False call.leaf w :=
    ⟨⟨rfl, BitmapFrameAllocator.room_zero _⟩, False.elim⟩
  cases call with
  | page va pa flags =>
    obtain ⟨w', hle, hspace', hpost, -⟩ :=
      mapPage_evolves (tableIndex_lt va 4) False.elim w s hspace hpre
    exact ⟨w', hle, hspace', fun a ha => (hpost a ha).leaf_of_update,
      False.elim⟩
  | userPage va pa write =>
    obtain ⟨w', hle, hspace', hpost, -⟩ :=
      mapUserPage_evolves (by decide) False.elim w s hspace hpre
    exact ⟨w', hle, hspace', fun a ha => (hpost a ha).1.leaf_of_update,
      False.elim⟩

/-- After every run the tables form a tree, and each successful call still
has its leaf. -/
theorem map_run_leaves (S : NewSpace)
    {history : List (MapCall × Except MmuError Unit)} {s : Physical}
    (hrun : Run (mapStep S.pml4) S.state history s) :
    ∃ w, Space tableEntries False S.pml4 w s ∧
      ∀ call, (call, Except.ok ()) ∈ history →
        w.leaves (pagePath call.virtAddr) = some call.leaf := by
  induction hrun with
  | start => exact ⟨S.world, S.space_world, fun _ h => (nomatch h)⟩
  | @next history s s' call r _ hstep ih =>
    obtain ⟨w, hspace, hleaves⟩ := ih
    obtain ⟨w', hle, hspace', hpost, -⟩ :=
      mapCall_evolves call w s hspace trivial
    have heval : (call.program S.pml4).eval s = (r, s') := Option.some.inj hstep
    rw [heval] at hspace' hpost
    refine ⟨w', hspace', ?_⟩
    intro earlier hmem
    rcases List.mem_cons.mp hmem with hnow | hold
    · cases hnow
      exact hpost () rfl
    · exact hle.2 _ _ (hleaves earlier hold)

/-! ## The permission of a page -/

/-- What the hardware permits at an address, if it is mapped. -/
def effectiveAt (m : Mem) (pml4 : ℕ) (va : BitVec 64) : Option Permission :=
  (hardwareWalk m va 4 pml4).map effective

/-- Below three entries with the flags `mid`, only the write permission of a
leaf is left. -/
theorem effective_of_mid {e₄ e₃ e₂ leaf : PageTableEntry}
    (h₄ : e₄.flags = mid) (h₃ : e₃.flags = mid) (h₂ : e₂.flags = mid) :
    effective [e₄, e₃, e₂, leaf] = ⟨false, leaf.word.getLsbD 1, false⟩ := by
  have hbits : ∀ e : PageTableEntry, e.flags = mid →
      e.word.getLsbD 2 = false ∧ e.word.getLsbD 1 = true ∧
        e.word.getLsbD 63 = true := by
    intro e he
    have huser : mid.contains (bit 2) = false := by decide
    have hwrite : mid.contains (bit 1) = true := by decide
    have hexec : mid.contains (bit 63) = true := by decide
    rw [getLsbD_of_flags_mid he (by omega) (by omega),
      getLsbD_of_flags_mid he (by omega) (by omega),
      getLsbD_of_flags_mid he (by omega) (by omega)]
    exact ⟨huser, hwrite, hexec⟩
  obtain ⟨huser₄, hwrite₄, hexec₄⟩ := hbits e₄ h₄
  obtain ⟨-, hwrite₃, -⟩ := hbits e₃ h₃
  obtain ⟨-, hwrite₂, -⟩ := hbits e₂ h₂
  simp only [effective, List.all_cons, List.all_nil, huser₄, hwrite₄, hexec₄,
    hwrite₃, hwrite₂, Bool.false_and, Bool.true_and, Bool.and_true,
    Bool.not_true]

/-- After any run, a page that a successful call mapped has the permission
asked for exactly when neither user access nor execution was asked for. -/
theorem effective_eq_requested_iff (S : NewSpace)
    {history : List (MapCall × Except MmuError Unit)} {s : Physical}
    (hrun : Run (mapStep S.pml4) S.state history s) {call : MapCall}
    (hok : (call, Except.ok ()) ∈ history) :
    effectiveAt s.mem S.pml4 call.virtAddr = some (requested call.flags) ↔
      call.flags.contains userAccessible = false ∧
        call.flags.contains noExecute = true := by
  obtain ⟨w, hspace, hleaves⟩ := map_run_leaves S hrun
  obtain ⟨e₄, e₃, e₂, hwalk, h₄, h₃, h₂⟩ :=
    hspace.hardwareWalk_eq (hleaves call hok)
  have hwrite : call.leaf.word.getLsbD 1 = call.flags.contains writable :=
    PageTableEntry.getLsbD_encode_leaf _ _ (by omega) (by omega)
  rw [effectiveAt, hwalk, Option.map_some, effective_of_mid h₄ h₃ h₂, hwrite,
    Option.some_inj, requested, Permission.mk.injEq]
  cases call.flags.contains userAccessible with
  | true => simp
  | false => simp

/-- An allocator with the frames below 2 MiB in use and all others free. -/
def lowFramesUsed : BitmapFrameAllocator where
  bitmap i := if i < 8 then BitVec.allOnes 64 else 0
  freeCount := maxFrames - 512
  nextFreeWord := 0

def emptySpace : NewSpace where
  state := { mem := fun _ => 0, allocator := lowFramesUsed }
  pml4 := 0x180000
  aligned := by decide
  reserved := by
    rintro ⟨-, -, hfree⟩
    revert hfree
    decide
  empty i hi := entryAt_erased hi fun _ _ => rfl

/-- A code page of the user: present, user accessible and executable. -/
def codePageCall : MapCall := .userPage 0x400000 0x600000 false

/-- The code page is mapped, but neither accessible to the user nor
executable. -/
theorem user_code_page_unreachable :
    ((codePageCall.program emptySpace.pml4).eval emptySpace.state).1 = .ok () ∧
      requested codePageCall.flags = ⟨true, false, true⟩ ∧
        effectiveAt ((codePageCall.program emptySpace.pml4).eval
          emptySpace.state).2.mem emptySpace.pml4 codePageCall.virtAddr =
            some ⟨false, false, false⟩ := by
  refine ⟨rfl, by decide, ?_⟩
  decide +kernel

/-- A kernel data page, which has the permission asked for. -/
def dataPageCall : MapCall := .page 0x400000 0x600000 mid

theorem effective_eq_requested_data_page :
    effectiveAt ((dataPageCall.program emptySpace.pml4).eval
      emptySpace.state).2.mem emptySpace.pml4 dataPageCall.virtAddr =
        some (requested dataPageCall.flags) ↔
      dataPageCall.flags.contains userAccessible = false ∧
        dataPageCall.flags.contains noExecute = true :=
  effective_eq_requested_iff emptySpace
    (Run.next (a := dataPageCall) (r := .ok ()) Run.start rfl)
    List.mem_cons_self

end IsoLightK0
