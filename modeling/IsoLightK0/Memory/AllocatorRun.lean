import IsoLightK0.Memory.MemoryMap
import IsoLightK0.Support.Runs

/-!
# Runs of the frame allocator

The allocator is a bitmap, a count and a hint.  Along every run the count is
the number of clear bits and no frame below the hint is free, so that `alloc`
takes the lowest free frame.

The bitmap does not tell a frame that was handed out from one that was reserved.
Whether frames are handed out twice is therefore a matter of the calls that
are made: of `init_from_memory_map`, which is meant to be called once, and of
`mark_range_used`, which is meant to be called right after it.
-/

namespace IsoLightK0

open Bytes Triples Runs

inductive AllocError
  | outOfMemory
  | invalidFrame
  | doubleFree
  deriving DecidableEq, Repr

structure PhysFrame where
  addr : BitVec 64
  aligned : addr.toNat % frameSize = 0

def PhysFrame.index (frame : PhysFrame) : ℕ := frame.addr.toNat / frameSize

namespace BitmapFrameAllocator

/-- The last part of `dealloc`. -/
def release (a : BitmapFrameAllocator) (idx : ℕ) : BitmapFrameAllocator :=
  { a.markFree idx with freeCount := a.freeCount + 1 }.lowerHint (idx / 64)

end BitmapFrameAllocator

/-- `dealloc`, with the erasure of the frame. -/
def deallocFrame (frame : PhysFrame) : Prog Physical AllocError Unit := do
  Prog.exitIf (frame.index ≥ maxFrames) .invalidFrame
  let s ← get
  Prog.exitIf (s.allocator.isFree frame.index) .doubleFree
  eraseFrame frame.addr.toNat
  modify fun s => { s with allocator := s.allocator.release frame.index }

theorem deallocFrame_cases (frame : PhysFrame) (s : Physical) :
    (∃ e, (deallocFrame frame).eval s = (.error e, s)) ∨
      (frame.index < maxFrames ∧
        s.allocator.isFree frame.index = false ∧
        (deallocFrame frame).eval s = (.ok (), {
          mem := s.mem.fill frame.addr.toNat frameSize 0
          allocator := s.allocator.release frame.index })) := by
  unfold deallocFrame
  rw [Prog.eval_exitIf_bind]
  by_cases hbound : frame.index ≥ maxFrames
  · rw [if_pos hbound]
    exact .inl ⟨_, rfl⟩
  · rw [if_neg hbound, Prog.eval_get_bind, Prog.eval_exitIf_bind]
    by_cases hfree : s.allocator.isFree frame.index = true
    · rw [if_pos hfree]
      exact .inl ⟨_, rfl⟩
    · rw [if_neg hfree]
      exact .inr ⟨Nat.lt_of_not_ge hbound, Bool.eq_false_iff.mpr hfree, rfl⟩

/-! ## Counting -/

namespace BitmapFrameAllocator

def freeFrames (a : BitmapFrameAllocator) : Finset ℕ :=
  (Finset.range maxFrames).filter fun f => a.isFree f = true

theorem mem_freeFrames (a : BitmapFrameAllocator) (f : ℕ) :
    f ∈ a.freeFrames ↔ f < maxFrames ∧ a.isFree f = true := by
  rw [freeFrames, Finset.mem_filter, Finset.mem_range]

def Counted (a : BitmapFrameAllocator) : Prop :=
  a.freeCount = a.freeFrames.card

/-- No frame below the word of the hint is free. -/
def Hinted (a : BitmapFrameAllocator) : Prop :=
  ∀ f, f < maxFrames → a.isFree f = true → a.nextFreeWord ≤ f / 64

variable {a a' : BitmapFrameAllocator} {i : ℕ}

theorem Counted.of_insert (h : a.Counted) (hi : i < maxFrames)
    (hused : a.isFree i = false) (hcount : a'.freeCount = a.freeCount + 1)
    (hfree : ∀ f, a'.isFree f = true ↔ a.isFree f = true ∨ f = i) :
    a'.Counted := by
  have hframes : a'.freeFrames = insert i a.freeFrames := by
    ext f
    rw [mem_freeFrames, Finset.mem_insert, mem_freeFrames, hfree]
    constructor
    · rintro ⟨hf, hold | hnew⟩
      · exact .inr ⟨hf, hold⟩
      · exact .inl hnew
    · rintro (rfl | ⟨hf, hold⟩)
      · exact ⟨hi, .inr rfl⟩
      · exact ⟨hf, .inl hold⟩
  have hnew : i ∉ a.freeFrames := by
    rw [mem_freeFrames, hused]
    simp
  rw [Counted, hcount, hframes, Finset.card_insert_of_notMem hnew, h]

theorem Counted.of_erase (h : a.Counted) (hi : i < maxFrames)
    (hold : a.isFree i = true) (hcount : a'.freeCount = a.freeCount - 1)
    (hfree : ∀ f, a'.isFree f = true ↔ a.isFree f = true ∧ f ≠ i) :
    a'.Counted := by
  have hframes : a'.freeFrames = a.freeFrames.erase i := by
    ext f
    rw [mem_freeFrames, Finset.mem_erase, mem_freeFrames, hfree]
    constructor
    · rintro ⟨hf, hfree, hne⟩
      exact ⟨hne, hf, hfree⟩
    · rintro ⟨hne, hf, hfree⟩
      exact ⟨hf, hfree, hne⟩
  have hmem : i ∈ a.freeFrames := (mem_freeFrames a i).mpr ⟨hi, hold⟩
  rw [Counted, hcount, hframes, Finset.card_erase_of_mem hmem, h]

theorem counted_freeFrame (h : a.Counted) (hi : i < maxFrames) :
    (a.freeFrame i).Counted := by
  by_cases hfree : a.isFree i = true
  · rw [freeFrame, if_pos hfree]
    exact h
  · refine h.of_insert hi (Bool.eq_false_iff.mpr hfree) ?_
      (isFree_freeFrame a i)
    rw [freeFrame, if_neg hfree]

theorem counted_useFrame (h : a.Counted) (hi : i < maxFrames) :
    (a.useFrame i).Counted := by
  by_cases hfree : a.isFree i = true
  · refine h.of_erase hi hfree ?_ (isFree_useFrame a i)
    rw [useFrame, if_pos hfree]
  · rw [useFrame, if_neg hfree]
    exact h

theorem counted_lowerHint (h : a.Counted) (word : ℕ) :
    (a.lowerHint word).Counted := by
  have hframes : (a.lowerHint word).freeFrames = a.freeFrames := by
    ext f
    rw [mem_freeFrames, mem_freeFrames, isFree_lowerHint]
  rw [Counted, hframes]
  unfold lowerHint
  split
  · exact h
  · exact h

theorem nextFreeWord_lowerHint_le (a : BitmapFrameAllocator) (word : ℕ) :
    (a.lowerHint word).nextFreeWord ≤ a.nextFreeWord ∧
      (a.lowerHint word).nextFreeWord ≤ word := by
  unfold lowerHint
  split
  · rename_i hlt
    exact ⟨le_of_lt hlt, le_rfl⟩
  · rename_i hge
    exact ⟨le_rfl, Nat.le_of_not_lt hge⟩

/-! ## What the calls keep -/

structure Consistent (a : BitmapFrameAllocator) : Prop where
  counted : a.Counted
  hinted : a.Hinted

theorem consistent_new : new.Consistent := by
  constructor
  · have hnone : new.freeFrames = ∅ := by
      ext f
      rw [mem_freeFrames, isFree_new]
      simp
    rw [Counted, hnone]
    rfl
  · intro f _ hfree
    rw [isFree_new] at hfree
    cases hfree

theorem nextFreeWord_foldl_freeFrame (indices : List ℕ)
    (a : BitmapFrameAllocator) :
    (indices.foldl freeFrame a).nextFreeWord = a.nextFreeWord := by
  refine List.foldlRecOn (motive := fun b => b.nextFreeWord = a.nextFreeWord)
    indices freeFrame rfl fun b hb i _ => ?_
  unfold freeFrame
  split
  · exact hb
  · exact hb

theorem nextFreeWord_foldl_useFrame (indices : List ℕ)
    (a : BitmapFrameAllocator) :
    (indices.foldl useFrame a).nextFreeWord = a.nextFreeWord := by
  refine List.foldlRecOn (motive := fun b => b.nextFreeWord = a.nextFreeWord)
    indices useFrame rfl fun b hb i _ => ?_
  unfold useFrame
  split
  · exact hb
  · exact hb

theorem Consistent.markRangeFree (h : a.Consistent)
    (base length : BitVec 64) : (a.markRangeFree base length).Consistent := by
  unfold BitmapFrameAllocator.markRangeFree
  extract_lets alignedBase alignedEnd startIdx endIdx
  split
  · exact h
  · obtain ⟨hold, hnew⟩ := nextFreeWord_lowerHint_le
      ((List.range' startIdx (endIdx - startIdx)).foldl freeFrame a)
      (startIdx / 64)
    rw [nextFreeWord_foldl_freeFrame] at hold
    have hend : endIdx ≤ maxFrames := min_le_right _ _
    constructor
    · refine counted_lowerHint (List.foldlRecOn (motive := Counted) _ _
        h.counted fun a ha i hi => counted_freeFrame ha ?_) _
      rw [List.mem_range'_1] at hi
      omega
    · intro f hf hfree
      rw [isFree_lowerHint, isFree_foldl_freeFrame, List.mem_range'_1] at hfree
      rcases hfree with hfree | hrange
      · exact hold.trans (h.hinted f hf hfree)
      · exact hnew.trans (Nat.div_le_div_right hrange.1)

theorem Consistent.markRangeUsed (h : a.Consistent)
    (base length : BitVec 64) : (a.markRangeUsed base length).Consistent := by
  unfold BitmapFrameAllocator.markRangeUsed
  extract_lets startIdx endIdx
  have hend : endIdx ≤ maxFrames := min_le_right _ _
  constructor
  · refine List.foldlRecOn (motive := Counted) _ _ h.counted fun a ha i hi =>
      counted_useFrame ha ?_
    rw [List.mem_range'_1] at hi
    omega
  · intro f hf hfree
    rw [isFree_foldl_useFrame] at hfree
    rw [nextFreeWord_foldl_useFrame]
    exact h.hinted f hf hfree.1

theorem Consistent.initFromMemoryMap (h : a.Consistent) (map : MemoryMap) :
    (a.initFromMemoryMap map).Consistent :=
  List.foldlRecOn (motive := Consistent) map.usableRegions _ h
    fun _ ha r _ => ha.markRangeFree r.base r.length

theorem isFree_release (a : BitmapFrameAllocator) (i f : ℕ) :
    (a.release i).isFree f = true ↔ a.isFree f = true ∨ f = i := by
  rw [release, isFree_lowerHint]
  exact isFree_markFree a i f

theorem counted_markFree (h : a.Counted) (hi : i < maxFrames)
    (hused : a.isFree i = false) :
    ({ a.markFree i with freeCount := a.freeCount + 1 } :
      BitmapFrameAllocator).Counted :=
  h.of_insert hi hused rfl (isFree_markFree a i)

theorem Consistent.release (h : a.Consistent) (hi : i < maxFrames)
    (hused : a.isFree i = false) : (a.release i).Consistent := by
  have hmark := counted_markFree h.counted hi hused
  have hfree := isFree_release a i
  unfold BitmapFrameAllocator.release at hfree ⊢
  obtain ⟨hold, hnew⟩ := nextFreeWord_lowerHint_le
    { a.markFree i with freeCount := a.freeCount + 1 } (i / 64)
  refine ⟨counted_lowerHint hmark _, ?_⟩
  intro f hf hf'
  rcases (hfree f).mp hf' with hbefore | rfl
  · exact hold.trans (h.hinted f hf hbefore)
  · exact hnew

/-! ## The frame that `alloc` takes -/

theorem Hinted.alloc_lowest (h : a.Hinted) {p : ℕ}
    (halloc : a.alloc = some (p, a')) :
    ∃ f, f < maxFrames ∧ p = f * frameSize ∧ a.isFree f = true ∧
      ∀ g, g < f → a.isFree g = false := by
  obtain ⟨f, hf, hp, hfree, -, hlowest, -⟩ := alloc_eq_some halloc
  refine ⟨f, hf, hp, hfree, ?_⟩
  intro g hg
  by_contra hno
  have hgfree : a.isFree g = true := by simpa using hno
  have hlow := h g (lt_trans hg hf) hgfree
  rw [hlowest g hlow hg] at hgfree
  cases hgfree

theorem Hinted.alloc_none (h : a.Hinted) (halloc : a.alloc = none) {f : ℕ}
    (hf : f < maxFrames) : a.isFree f = false := by
  by_contra hno
  have hfree : a.isFree f = true := by simpa using hno
  rw [alloc_eq_none halloc (h f hf hfree) hf] at hfree
  cases hfree

theorem Consistent.alloc (h : a.Consistent) {p : ℕ}
    (halloc : a.alloc = some (p, a')) : a'.Consistent := by
  obtain ⟨f, hf, -, hfree, -, hlowest, hcount, hhint, hmark⟩ :=
    alloc_eq_some halloc
  refine ⟨h.counted.of_erase hf hfree hcount hmark, ?_⟩
  intro g hg hgfree
  have hold := ((hmark g).mp hgfree).1
  have hlow := h.hinted g hg hold
  rw [hhint]
  by_contra hlt
  rw [hlowest g hlow (by omega)] at hold
  cases hold

end BitmapFrameAllocator

/-! ## Calls -/

open BitmapFrameAllocator

inductive AllocCall
  | init (map : MemoryMap)
  | markUsed (base length : BitVec 64)
  | alloc
  | dealloc (frame : PhysFrame)

inductive AllocResult
  | done
  | frame (addr : Option ℕ)
  | released (r : Except AllocError Unit)
  deriving DecidableEq

abbrev AllocEvent := AllocCall × AllocResult

/-- One call, with the erasures that `alloc` and `dealloc` make. -/
def allocCall (s : Physical) : AllocCall → AllocResult × Physical
  | .init map =>
    (.done, { s with allocator := s.allocator.initFromMemoryMap map })
  | .markUsed base length =>
    (.done, { s with allocator := s.allocator.markRangeUsed base length })
  | .alloc =>
    match s.allocator.alloc with
    | none => (.frame none, s)
    | some (p, allocator) =>
      (.frame (some p),
        { mem := s.mem.fill p frameSize 0, allocator := allocator })
  | .dealloc frame =>
    let outcome := (deallocFrame frame).eval s
    (.released outcome.1, outcome.2)

def allocStep (s : Physical) (call : AllocCall) :
    Option (AllocResult × Physical) :=
  some (allocCall s call)

inductive AllocEffect (s : Physical) : AllocCall → AllocResult → Physical → Prop
  | init (map : MemoryMap) :
      AllocEffect s (.init map) .done
        { s with allocator := s.allocator.initFromMemoryMap map }
  | markUsed (base length : BitVec 64) :
      AllocEffect s (.markUsed base length) .done
        { s with allocator := s.allocator.markRangeUsed base length }
  | alloc {p : ℕ} {allocator : BitmapFrameAllocator}
      (halloc : s.allocator.alloc = some (p, allocator)) :
      AllocEffect s .alloc (.frame (some p))
        { mem := s.mem.fill p frameSize 0, allocator := allocator }
  | allocFails : AllocEffect s .alloc (.frame none) s
  | dealloc (frame : PhysFrame) (hbound : frame.index < maxFrames)
      (hused : s.allocator.isFree frame.index = false) :
      AllocEffect s (.dealloc frame) (.released (.ok ())) {
        mem := s.mem.fill frame.addr.toNat frameSize 0
        allocator := s.allocator.release frame.index }
  | deallocFails (frame : PhysFrame) (e : AllocError) :
      AllocEffect s (.dealloc frame) (.released (.error e)) s

variable {s s' : Physical} {call : AllocCall} {r : AllocResult}

theorem allocStep_effect (h : allocStep s call = some (r, s')) :
    AllocEffect s call r s' := by
  have hcall : allocCall s call = (r, s') := Option.some.inj h
  cases call with
  | init map =>
    cases hcall
    exact .init map
  | markUsed base length =>
    cases hcall
    exact .markUsed base length
  | alloc =>
    unfold allocCall at hcall
    cases halloc : s.allocator.alloc with
    | none =>
      rw [halloc] at hcall
      cases hcall
      exact .allocFails
    | some taken =>
      rw [halloc] at hcall
      cases hcall
      exact .alloc halloc
  | dealloc frame =>
    unfold allocCall at hcall
    dsimp only at hcall
    rcases deallocFrame_cases frame s with ⟨e, heval⟩ | ⟨hi, hused, heval⟩
    · rw [heval] at hcall
      cases hcall
      exact .deallocFails frame e
    · rw [heval] at hcall
      cases hcall
      exact .dealloc frame hi hused

theorem AllocEffect.consistent (h : AllocEffect s call r s')
    (hcons : s.allocator.Consistent) : s'.allocator.Consistent := by
  cases h with
  | init map => exact hcons.initFromMemoryMap map
  | markUsed base length => exact hcons.markRangeUsed base length
  | alloc halloc => exact hcons.alloc halloc
  | allocFails => exact hcons
  | dealloc frame hbound hused => exact hcons.release hbound hused
  | deallocFails frame e => exact hcons

/-! ## Frames that are held -/

def HandsOut (event : AllocEvent) (f : ℕ) : Prop :=
  event = (.alloc, .frame (some (f * frameSize)))

def TakesBack (event : AllocEvent) (f : ℕ) : Prop :=
  ∃ frame : PhysFrame, frame.index = f ∧
    event = (.dealloc frame, .released (.ok ()))

/-- Frame `f` has been handed out and not been taken back since. -/
def Held (history : List AllocEvent) (f : ℕ) : Prop :=
  Live HandsOut TakesBack history f

/-- Some call of `init_from_memory_map` covered frame `f`. -/
def FreedIn (history : List AllocEvent) (f : ℕ) : Prop :=
  ∃ map r, (AllocCall.init map, r) ∈ history ∧ FreedByMap map f

/-- Some call of `mark_range_used` covered frame `f`. -/
def MarkedIn (history : List AllocEvent) (f : ℕ) : Prop :=
  ∃ base length r, (AllocCall.markUsed base length, r) ∈ history ∧
    UsedBy base length f

variable {f : ℕ} {event : AllocEvent}
  {history : List AllocEvent}

theorem handsOut_iff {taken : ℕ} :
    HandsOut (.alloc, .frame (some (taken * frameSize))) f ↔ f = taken := by
  unfold HandsOut frameSize
  constructor
  · intro h
    injection h with _ h
    injection h with h
    injection h with h
    omega
  · rintro rfl
    rfl

theorem held_cons_iff :
    Held (event :: history) f ↔
      HandsOut event f ∨ (Held history f ∧ ¬ TakesBack event f) :=
  live_cons_iff event history f

theorem held_cons_of_ne_alloc {call : AllocCall} {r : AllocResult}
    (hcall : call ≠ .alloc) (h : Held ((call, r) :: history) f) :
    Held history f ∧ ¬ TakesBack (call, r) f := by
  rcases held_cons_iff.mp h with hnow | hold
  · exact (hcall (congrArg Prod.fst hnow)).elim
  · exact hold

theorem FreedIn.cons (event : AllocEvent) (h : FreedIn history f) :
    FreedIn (event :: history) f := by
  obtain ⟨map, r, hmem, hfreed⟩ := h
  exact ⟨map, r, List.mem_cons_of_mem _ hmem, hfreed⟩

theorem markedIn_cons_iff :
    MarkedIn (event :: history) f ↔ MarkedIn history f ∨
      ∃ base length, event.1 = .markUsed base length ∧
        UsedBy base length f := by
  constructor
  · rintro ⟨base, length, r, hmem, hused⟩
    rcases List.mem_cons.mp hmem with rfl | hold
    · exact .inr ⟨base, length, rfl, hused⟩
    · exact .inl ⟨base, length, r, hold, hused⟩
  · rintro (⟨base, length, r, hmem, hused⟩ | ⟨base, length, hcall, hused⟩)
    · exact ⟨base, length, r, List.mem_cons_of_mem _ hmem, hused⟩
    · exact ⟨base, length, event.2, by simp [← hcall], hused⟩

/-! ## Conditions on the calls -/

/-- `init_from_memory_map` frees no frame that is held. -/
def InitSparesHeld (event : AllocEvent)
    (earlier : List AllocEvent) : Prop :=
  ∀ map, event.1 = .init map → ∀ f, FreedByMap map f → ¬ Held earlier f

/-- Only frames that are held are deallocated, `init_from_memory_map` frees no
frame that was marked, and `mark_range_used` marks no frame that is held. -/
structure SparesReserved (event : AllocEvent)
    (earlier : List AllocEvent) : Prop where
  dealloc : ∀ frame, event.1 = .dealloc frame → Held earlier frame.index
  init : ∀ map, event.1 = .init map → ∀ f, FreedByMap map f →
    ¬ MarkedIn earlier f
  markUsed : ∀ base length, event.1 = .markUsed base length →
    ∀ f, UsedBy base length f → ¬ Held earlier f

def HandsOutOnce (event : AllocEvent)
    (earlier : List AllocEvent) : Prop :=
  ∀ f, HandsOut event f → ¬ Held earlier f

/-- No frame is handed out that was never freed or that was marked. -/
def HandsOutUnreserved (event : AllocEvent)
    (earlier : List AllocEvent) : Prop :=
  ∀ f, HandsOut event f → FreedIn earlier f ∧ ¬ MarkedIn earlier f

def HeldInUse (history : List AllocEvent) (s : Physical) :
    Prop :=
  ∀ f, Held history f → s.allocator.isFree f = false

theorem AllocEffect.isFree_of_handsOut (h : AllocEffect s call r s')
    (hout : HandsOut (call, r) f) : s.allocator.isFree f = true := by
  cases h with
  | alloc halloc =>
    obtain ⟨taken, -, rfl, hfree, -⟩ := alloc_eq_some halloc
    rw [handsOut_iff.mp hout]
    exact hfree
  | init map | markUsed base length | allocFails | dealloc frame hbound hused
  | deallocFails frame e => cases hout

/-- Where the free frames come from: they were free and were not taken, or
`init_from_memory_map` or `dealloc` freed them. -/
theorem AllocEffect.isFree_cases (h : AllocEffect s call r s')
    (hfree : s'.allocator.isFree f = true) :
    (s.allocator.isFree f = true ∧ ¬ HandsOut (call, r) f ∧
        ∀ base length, call = .markUsed base length →
          ¬ UsedBy base length f) ∨
      (∃ map, call = .init map ∧ FreedByMap map f) ∨ TakesBack (call, r) f := by
  cases h with
  | init map =>
    rw [isFree_initFromMemoryMap] at hfree
    rcases hfree with hold | hfreed
    · exact .inl ⟨hold, by simp [HandsOut], by simp⟩
    · exact .inr (.inl ⟨map, rfl, hfreed⟩)
  | markUsed base length =>
    rw [isFree_markRangeUsed] at hfree
    refine .inl ⟨hfree.1, by simp [HandsOut], ?_⟩
    intro base' length' hcall
    cases hcall
    exact hfree.2
  | alloc halloc =>
    obtain ⟨taken, -, rfl, -, -, -, -, -, hmark⟩ := alloc_eq_some halloc
    obtain ⟨hold, hne⟩ := (hmark f).mp hfree
    exact .inl ⟨hold, fun hout => hne (handsOut_iff.mp hout), by simp⟩
  | allocFails => exact .inl ⟨hfree, by simp [HandsOut], by simp⟩
  | dealloc frame hbound hused =>
    rw [isFree_release] at hfree
    rcases hfree with hold | rfl
    · exact .inl ⟨hold, by simp [HandsOut], by simp⟩
    · exact .inr (.inr ⟨frame, rfl, rfl⟩)
  | deallocFails frame e => exact .inl ⟨hfree, by simp [HandsOut], by simp⟩

theorem AllocEffect.heldInUse (h : AllocEffect s call r s')
    (hheld : HeldInUse history s) (hspares : InitSparesHeld (call, r) history) :
    HeldInUse ((call, r) :: history) s' ∧ HandsOutOnce (call, r) history := by
  have hused : ∀ f, s.allocator.isFree f = true → ¬ Held history f := by
    intro f hfree hold
    rw [hheld f hold] at hfree
    cases hfree
  constructor
  · intro f hf
    rw [← Bool.not_eq_true]
    intro hfree
    rcases h.isFree_cases hfree with
      ⟨hold, hout, -⟩ | ⟨map, rfl, hfreed⟩ | htaken
    · rcases held_cons_iff.mp hf with hnow | ⟨hheldBefore, -⟩
      · exact hout hnow
      · exact hused f hold hheldBefore
    · exact hspares map rfl f hfreed (held_cons_of_ne_alloc (by simp) hf).1
    · rcases held_cons_iff.mp hf with hnow | ⟨-, hkept⟩
      · obtain ⟨frame, -, hevent⟩ := htaken
        rw [hevent] at hnow
        cases hnow
      · exact hkept htaken
  · intro f hout
    exact hused f (h.isFree_of_handsOut hout)

/-- Frames that are free or held have been freed and have not been marked. -/
def Unreserved (history : List AllocEvent) (s : Physical) :
    Prop :=
  ∀ f, s.allocator.isFree f = true ∨ Held history f →
    FreedIn history f ∧ ¬ MarkedIn history f

theorem unreserved_cons (h : FreedIn history f ∧ ¬ MarkedIn history f)
    (hevent : ∀ base length, event.1 = .markUsed base length →
      ¬ UsedBy base length f) :
    FreedIn (event :: history) f ∧ ¬ MarkedIn (event :: history) f := by
  refine ⟨h.1.cons event, ?_⟩
  rw [markedIn_cons_iff]
  rintro (hold | ⟨base, length, hcall, hused⟩)
  · exact h.2 hold
  · exact hevent base length hcall hused

/-- One careful call keeps reserved frames reserved and hands none of them
out. -/
theorem AllocEffect.unreserved (h : AllocEffect s call r s')
    (hun : Unreserved history s) (hspares : SparesReserved (call, r) history) :
    Unreserved ((call, r) :: history) s' ∧
      HandsOutUnreserved (call, r) history := by
  constructor
  · rintro f (hfree | hf)
    · rcases h.isFree_cases hfree with
        ⟨hold, -, hmark⟩ | ⟨map, rfl, hfreed⟩ | ⟨frame, rfl, hevent⟩
      · exact unreserved_cons (hun f (.inl hold)) hmark
      · refine ⟨⟨map, r, List.mem_cons_self, hfreed⟩, ?_⟩
        rw [markedIn_cons_iff]
        rintro (hold | ⟨_, _, hcall, -⟩)
        · exact hspares.init map rfl f hfreed hold
        · cases hcall
      · cases hevent
        exact unreserved_cons (hun _ (.inr (hspares.dealloc frame rfl)))
          (by simp)
    · rcases held_cons_iff.mp hf with hnow | ⟨hold, -⟩
      · refine unreserved_cons (hun f (.inl (h.isFree_of_handsOut hnow))) ?_
        cases hnow
        simp
      · exact unreserved_cons (hun f (.inr hold)) fun base length hcall hused =>
          hspares.markUsed base length hcall f hused hold
  · intro f hout
    exact hun f (.inl (h.isFree_of_handsOut hout))

/-! ## Runs -/

section Runs

variable {m : Mem} {history : List AllocEvent}

def bootPhysical (m : Mem) : Physical where
  mem := m
  allocator := new

section BootRuns

variable (hrun : Run allocStep (bootPhysical m) history s)

include hrun

theorem alloc_run_consistent :
    s.allocator.Consistent :=
  hrun.invariant (I := fun s => s.allocator.Consistent) consistent_new
    fun _ _ _ _ hcons hstep => (allocStep_effect hstep).consistent hcons

theorem alloc_run_handsOutOnce (hspares : Throughout InitSparesHeld history) :
    HeldInUse history s ∧ Throughout HandsOutOnce history := by
  induction hrun with
  | start => exact ⟨fun f hf => (not_live_nil f hf).elim, trivial⟩
  | next _ hstep ih =>
    obtain ⟨hheld, hearlier⟩ := ih hspares.2
    obtain ⟨hheld', hnow⟩ := (allocStep_effect hstep).heldInUse hheld hspares.1
    exact ⟨hheld', hnow, hearlier⟩

theorem alloc_run_handsOutUnreserved
    (hspares : Throughout SparesReserved history) :
    Unreserved history s ∧ Throughout HandsOutUnreserved history := by
  induction hrun with
  | start =>
    refine ⟨?_, trivial⟩
    rintro f (hfree | hf)
    · rw [bootPhysical, isFree_new] at hfree
      cases hfree
    · exact (not_live_nil f hf).elim
  | next _ hstep ih =>
    obtain ⟨hun, hearlier⟩ := ih hspares.2
    obtain ⟨hun', hnow⟩ := (allocStep_effect hstep).unreserved hun hspares.1
    exact ⟨hun', hnow, hearlier⟩

end BootRuns

/-- Along every run the count is right, the hint is sound, `alloc` takes the
lowest free frame or there is none, and a failed `dealloc` changes nothing.
If `init_from_memory_map` spares the frames that are held, no frame is handed
out twice; and if the calls also spare the frames that are reserved, none of
these is handed out. -/
theorem alloc_run (hrun : Run allocStep (bootPhysical m) history s) :
    (s.allocator.freeCount = s.allocator.freeFrames.card ∧
      ∀ f, f < maxFrames → s.allocator.isFree f = true →
        s.allocator.nextFreeWord ≤ f / 64) ∧
    (∀ p a, s.allocator.alloc = some (p, a) →
      ∃ f, f < maxFrames ∧ p = f * frameSize ∧ s.allocator.isFree f = true ∧
        ∀ g, g < f → s.allocator.isFree g = false) ∧
    (s.allocator.alloc = none →
      ∀ f, f < maxFrames → s.allocator.isFree f = false) ∧
    (∀ frame e, ((deallocFrame frame).eval s).1 = .error e →
      ((deallocFrame frame).eval s).2 = s) ∧
    (Throughout InitSparesHeld history → Throughout HandsOutOnce history) ∧
    (Throughout SparesReserved history →
      Throughout HandsOutUnreserved history) := by
  have hcons := alloc_run_consistent hrun
  refine ⟨⟨hcons.counted, hcons.hinted⟩, ?_, ?_, ?_, ?_, ?_⟩
  · intro p a halloc
    exact hcons.hinted.alloc_lowest halloc
  · intro halloc f hf
    exact hcons.hinted.alloc_none halloc hf
  · intro frame e herror
    rcases deallocFrame_cases frame s with ⟨e', heval⟩ | ⟨-, -, heval⟩
    · rw [heval]
    · rw [heval] at herror
      cases herror
  · exact fun hspares => (alloc_run_handsOutOnce hrun hspares).2
  · exact fun hspares => (alloc_run_handsOutUnreserved hrun hspares).2

end Runs

/-! ## Repeated initialisation -/

def oneFrameMap : MemoryMap := .ofRegions [⟨0, 0x1000, .usable⟩]

def frameZero : PhysFrame where
  addr := 0
  aligned := by decide

/-- Frame 0 is handed out, initialised again and handed out again; the latest
call comes first. -/
def reinitHistory : List AllocEvent :=
  [(.alloc, .frame (some 0)), (.init oneFrameMap, .done),
    (.alloc, .frame (some 0)), (.init oneFrameMap, .done)]

/-- Frame 0 is handed out, marked, taken back and handed out again. -/
def markHeldHistory : List AllocEvent :=
  [(.alloc, .frame (some 0)), (.dealloc frameZero, .released (.ok ())),
    (.markUsed 0 0x1000, .done), (.alloc, .frame (some 0)),
    (.init oneFrameMap, .done)]

theorem reinitHistory_run :
    ∃ s, Run allocStep (bootPhysical fun _ => 0) reinitHistory s :=
  exists_run_of_replay (f := allocCall) (by decide +kernel)

theorem markHeldHistory_run :
    ∃ s, Run allocStep (bootPhysical fun _ => 0) markHeldHistory s :=
  exists_run_of_replay (f := allocCall) (by decide +kernel)

theorem held_zero_of_quiet (later : List AllocEvent)
    (hlater : ∀ e ∈ later, ∀ frame, e.1 ≠ .dealloc frame)
    (earlier : List AllocEvent) :
    Held (later ++ (.alloc, .frame (some 0)) :: earlier) 0 := by
  refine ⟨later, _, earlier, rfl, rfl, ?_⟩
  rintro e he ⟨frame, -, rfl⟩
  exact hlater _ he frame rfl

/-- The second initialisation frees a frame that is held, which is handed out
twice; and a frame that was marked while it was held is handed out after it
has been taken back, although only held frames are deallocated. -/
theorem reserved_and_held_frames_handed_out :
    (∃ s, Run allocStep (bootPhysical fun _ => 0) reinitHistory s ∧
      ¬ Throughout HandsOutOnce reinitHistory) ∧
    ∃ s, Run allocStep (bootPhysical fun _ => 0) markHeldHistory s ∧
      Throughout (fun event earlier => ∀ frame,
        event.1 = .dealloc frame → Held earlier frame.index)
        markHeldHistory ∧
      ¬ Throughout HandsOutUnreserved markHeldHistory := by
  obtain ⟨s, hrun⟩ := reinitHistory_run
  obtain ⟨s', hrun'⟩ := markHeldHistory_run
  refine ⟨⟨s, hrun, ?_⟩, s', hrun', ?_, ?_⟩
  · intro honce
    exact honce.1 0 rfl (held_zero_of_quiet
      [(.init oneFrameMap, .done)] (by simp) _)
  · have hheld := held_zero_of_quiet
      [(.markUsed 0 0x1000, .done)] (by simp) [(.init oneFrameMap, .done)]
    refine ⟨by simp, ?_, by simp, by simp, by simp, trivial⟩
    rintro frame ⟨⟩
    exact hheld
  · intro hout
    apply (hout.1 0 rfl).2
    exact ⟨0, 0x1000, .done, by simp, by decide⟩

/-- Frame 0 is handed out, taken back and handed out again. -/
def reuseHistory : List AllocEvent :=
  [(.alloc, .frame (some 0)), (.dealloc frameZero, .released (.ok ())),
    (.alloc, .frame (some 0)), (.init oneFrameMap, .done)]

theorem alloc_run_reuse :
    ∃ s, Run allocStep (bootPhysical fun _ => 0) reuseHistory s ∧
      s.allocator.freeCount = s.allocator.freeFrames.card ∧
      Throughout HandsOutOnce reuseHistory ∧
      Throughout HandsOutUnreserved reuseHistory := by
  obtain ⟨s, hrun⟩ : ∃ s, Run allocStep (bootPhysical fun _ => 0)
      reuseHistory s :=
    exists_run_of_replay (f := allocCall) (by decide +kernel)
  have hheld : Held [(.alloc, .frame (some 0)), (.init oneFrameMap, .done)] 0 :=
    held_zero_of_quiet [] (by simp) _
  have hspares : Throughout InitSparesHeld reuseHistory := by
    refine ⟨by simp [InitSparesHeld], by simp [InitSparesHeld],
      by simp [InitSparesHeld], ?_, trivial⟩
    intro map _ f _
    exact not_live_nil f
  have hreserved : Throughout SparesReserved reuseHistory := by
    refine ⟨⟨by simp, by simp, by simp⟩, ⟨?_, by simp, by simp⟩,
      ⟨by simp, by simp, by simp⟩, ⟨by simp, ?_, by simp⟩, trivial⟩
    · rintro frame ⟨⟩
      exact hheld
    · rintro map - f - ⟨_, _, _, hmem, -⟩
      cases hmem
  have hclaim := alloc_run hrun
  exact ⟨s, hrun, hclaim.1.1, hclaim.2.2.2.2.1 hspares,
    hclaim.2.2.2.2.2 hreserved⟩

end IsoLightK0
