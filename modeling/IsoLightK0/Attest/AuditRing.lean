import IsoLightK0.Attest.Model
import IsoLightK0.Support.Cyclic
import Mathlib.Data.List.Induction

/-!
# What the audit ring remembers

The ring is compared with an unbounded log of every event enqueued so far.
`head` counts the log modulo the capacity and `total` counts it modulo
`2 ^ 32`; the snapshot re-derives from the two how many cells are in use.
-/

namespace IsoLightK0

open Bytes

/-- The event that a call leaves when `seq` calls came before it. -/
def AuditCall.event (call : AuditCall) (seq : ℕ) : EnrollEvent where
  seq := BitVec.ofNat 32 seq
  slotIdx := call.slotIdx
  result := call.result
  busKind := call.busKind
  pad := 0
  pkHashPrefix := call.pkPrefix

/-- The events of a list of calls on the initial ring, in order. -/
def auditLog (calls : List AuditCall) : List EnrollEvent :=
  calls.mapIdx fun seq call => call.event seq

variable (calls : List AuditCall) {n : ℕ} {r r' : AuditRing}
  {log : List EnrollEvent}

@[simp] theorem length_auditLog : (auditLog calls).length = calls.length :=
  List.length_mapIdx

theorem auditLog_concat (call : AuditCall) :
    auditLog (calls ++ [call]) = auditLog calls ++ [call.event calls.length] :=
  List.mapIdx_concat

theorem auditEnqueueAll_concat (r : AuditRing) (calls : List AuditCall)
    (call : AuditCall) :
    auditEnqueueAll r (calls ++ [call]) =
      call.enqueue (auditEnqueueAll r calls) := by
  unfold auditEnqueueAll
  rw [List.foldl_append]
  rfl

/-- Some `n` calls lead from one ring to the other. -/
def Appends (n : ℕ) (r r' : AuditRing) : Prop :=
  ∃ calls : List AuditCall, calls.length = n ∧ r' = auditEnqueueAll r calls

theorem Appends.refl (r : AuditRing) : Appends 0 r r := ⟨[], rfl, rfl⟩

theorem Appends.trans {m : ℕ} {r'' : AuditRing} (h : Appends m r r')
    (h' : Appends n r' r'') : Appends (m + n) r r'' := by
  obtain ⟨calls, rfl, rfl⟩ := h
  obtain ⟨calls', rfl, rfl⟩ := h'
  exact ⟨calls ++ calls', List.length_append, List.foldl_append.symm⟩

theorem appends_auditEnqueue (r : AuditRing) (slotIdx result busKind : Byte)
    (pkPrefix : Buf 4) :
    Appends 1 r (auditEnqueue r slotIdx result busKind pkPrefix) :=
  ⟨[⟨slotIdx, result, busKind, pkPrefix⟩], rfl, rfl⟩

theorem Appends.total (h : Appends n r r') :
    r'.total = r.total + BitVec.ofNat 32 n := by
  obtain ⟨calls, rfl, rfl⟩ := h
  induction calls generalizing r with
  | nil => simp [auditEnqueueAll]
  | cons call calls ih =>
    have hone : (call.enqueue r).total = r.total + 1 := rfl
    rw [auditEnqueueAll, List.foldl_cons, ← auditEnqueueAll, ih, hone,
      List.length_cons, Nat.add_comm, BitVec.ofNat_add, ← BitVec.add_assoc]
    rfl

theorem Appends.unique {m : ℕ} (h : Appends m r r') (h' : Appends n r r')
    (hm : m < 2 ^ 32) (hn : n < 2 ^ 32) : m = n := by
  have htotal := h.total.symm.trans h'.total
  have hnat := congrArg BitVec.toNat ((BitVec.add_right_inj _).mp htotal)
  rwa [BitVec.toNat_ofNat, BitVec.toNat_ofNat, Nat.mod_eq_of_lt hm,
    Nat.mod_eq_of_lt hn] at hnat

/-- The ring remembers the log: both counters count it and the cells hold its
last 32 events. -/
structure AuditRing.Records (r : AuditRing) (log : List EnrollEvent) :
    Prop where
  head : r.head.val = log.length % 32
  total : r.total = BitVec.ofNat 32 log.length
  cells : Cyclic.Holds r.events log

theorem AuditRing.records_new : AuditRing.new.Records [] where
  head := rfl
  total := rfl
  cells := Cyclic.holds_nil _

theorem AuditRing.Records.enqueue (h : r.Records log) (call : AuditCall) :
    (call.enqueue r).Records (log ++ [call.event log.length]) where
  head := by
    have hnext : (r.head + 1).val = (r.head.val + 1) % 32 := Fin.val_add _ _
    rw [List.length_append, List.length_singleton]
    calc (call.enqueue r).head.val = (r.head.val + 1) % 32 := hnext
      _ = (log.length + 1) % 32 := by rw [h.head, Nat.mod_add_mod]
  total := by
    rw [List.length_append, List.length_singleton, BitVec.ofNat_add]
    calc (call.enqueue r).total = r.total + 1 := rfl
      _ = BitVec.ofNat 32 log.length + BitVec.ofNat 32 1 := by rw [h.total]; rfl
  cells := by
    have hevent : call.event log.length =
        { seq := r.total
          slotIdx := call.slotIdx
          result := call.result
          busKind := call.busKind
          pad := 0
          pkHashPrefix := call.pkPrefix } := by
      rw [h.total]
      rfl
    rw [hevent]
    exact h.cells.push h.head _

/-- A ring of 32 cells that has taken `n` events still holds the latest
`32 - n` from before. -/
theorem Appends.events_eq (h : Appends n r r') (hlog : r.Records log) {i : ℕ}
    (hi : i < log.length) (hrecent : log.length + n ≤ i + 32) {cell : Fin 32}
    (hcell : cell.val = i % 32) : r'.events cell = log[i] := by
  obtain ⟨calls, rfl, rfl⟩ := h
  induction calls generalizing r log with
  | nil => exact hlog.cells i hi hrecent cell hcell
  | cons call calls ih =>
    rw [List.length_cons] at hrecent
    have hmore := ih (hlog.enqueue call)
      (by rw [List.length_append]; omega)
      (by rw [List.length_append, List.length_singleton]; omega)
    rw [List.getElem_append_left hi] at hmore
    exact hmore

theorem auditEnqueueAll_records :
    (auditEnqueueAll AuditRing.new calls).Records (auditLog calls) := by
  induction calls using List.reverseRecOn with
  | nil => exact AuditRing.records_new
  | append_singleton calls call ih =>
    have hstep := ih.enqueue call
    rw [length_auditLog] at hstep
    rw [auditEnqueueAll_concat, auditLog_concat]
    exact hstep

/-! ## Snapshots -/

theorem AuditRing.Records.total_toNat (h : r.Records log) :
    r.total.toNat = log.length % 2 ^ 32 := by
  rw [h.total, BitVec.toNat_ofNat]

/-- The events that the wrapping counter lets a snapshot see: the last
`n % 2 ^ 32` of the `n` in the log, 32 at most. -/
def visibleEvents (log : List EnrollEvent) : List EnrollEvent :=
  Cyclic.latest (min (log.length % 2 ^ 32) auditRingCapacity) log

/-- `audit_snapshot` copies the oldest visible events that fit. -/
theorem auditSnapshot_eq_take (h : r.Records log) (outLen : ℕ) :
    auditSnapshot r outLen = ((visibleEvents log).take outLen, r.total) := by
  have htotal := h.total_toNat
  have hmod : log.length % 2 ^ 32 % 32 = log.length % 32 :=
    Nat.mod_mod_of_dvd _ (by decide)
  have hle : log.length % 2 ^ 32 ≤ log.length := Nat.mod_le _ _
  -- a counter above the capacity starts at `head`, any other at cell 0
  have hstart : (if r.total.toNat > auditRingCapacity then r.head
      else 0 : Fin 32).val =
      (log.length - min (log.length % 2 ^ 32) auditRingCapacity) % 32 := by
    unfold auditRingCapacity
    rw [htotal]
    split
    · rw [h.head]
      omega
    · rw [Fin.val_zero]
      omega
  have hread := h.cells.read
    (n := min (log.length % 2 ^ 32) auditRingCapacity)
    (by omega) (min_le_right _ _) hstart
  unfold auditSnapshot visibleEvents
  rw [← hread, ← List.map_take, List.take_range]
  simp only [htotal]
  congr 3
  unfold auditRingCapacity
  omega

theorem visibleEvents_eq_latest_iff (log : List EnrollEvent) :
    visibleEvents log =
        Cyclic.latest (min log.length auditRingCapacity) log ↔
      log.length < 2 ^ 32 ∨ auditRingCapacity ≤ log.length % 2 ^ 32 := by
  unfold visibleEvents
  constructor
  · intro heq
    have hlength := congrArg List.length heq
    rw [Cyclic.length_latest, Cyclic.length_latest] at hlength
    unfold auditRingCapacity at hlength ⊢
    omega
  · intro hcount
    congr 1
    unfold auditRingCapacity at hcount ⊢
    omega

/-- A snapshot with room for the whole ring is the last `min n 32` events
exactly when the counter has not wrapped, or has since counted a full ring
again. -/
theorem auditSnapshot_eq_latest_iff (calls : List AuditCall) (outLen : ℕ)
    (hout : auditRingCapacity ≤ outLen) :
    (auditSnapshot (auditEnqueueAll AuditRing.new calls) outLen).1 =
        Cyclic.latest (min calls.length auditRingCapacity) (auditLog calls) ↔
      calls.length < 2 ^ 32 ∨ auditRingCapacity ≤ calls.length % 2 ^ 32 := by
  have hfits : (visibleEvents (auditLog calls)).length ≤ outLen := by
    unfold visibleEvents
    rw [Cyclic.length_latest]
    omega
  rw [auditSnapshot_eq_take (auditEnqueueAll_records calls),
    List.take_of_length_le hfits, ← length_auditLog calls]
  exact visibleEvents_eq_latest_iff (auditLog calls)

theorem auditSnapshot_eq_latest_single :
    (auditSnapshot
        (auditEnqueueAll AuditRing.new [⟨0, 0, 0, Buf.zero⟩]) 32).1 =
      Cyclic.latest (min 1 auditRingCapacity)
        (auditLog [⟨0, 0, 0, Buf.zero⟩]) :=
  (auditSnapshot_eq_latest_iff [⟨0, 0, 0, Buf.zero⟩] 32 (le_refl 32)).mpr
    (.inl (by decide))

/-- After `2 ^ 32` enqueues the counter is back at zero and the snapshot of a
full ring is empty. -/
theorem auditSnapshot_wrapped :
    ∃ calls : List AuditCall, calls.length = 2 ^ 32 ∧
      (auditSnapshot (auditEnqueueAll AuditRing.new calls) 32).1 = [] ∧
      (Cyclic.latest (min calls.length auditRingCapacity)
        (auditLog calls)).length = 32 := by
  have hlength :
      (List.replicate (2 ^ 32) (⟨0, 0, 0, Buf.zero⟩ : AuditCall)).length =
        2 ^ 32 := List.length_replicate
  refine ⟨_, hlength, ?_, ?_⟩
  · rw [auditSnapshot_eq_take (auditEnqueueAll_records _)]
    apply List.eq_nil_of_length_eq_zero
    unfold visibleEvents
    rw [List.length_take, Cyclic.length_latest, length_auditLog, hlength]
    rfl
  · rw [Cyclic.length_latest, length_auditLog, hlength]
    rfl

end IsoLightK0
