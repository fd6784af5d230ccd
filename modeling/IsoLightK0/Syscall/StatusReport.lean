import IsoLightK0.Registry.BusWrite
import IsoLightK0.Syscall.AirGapRun

/-!
# Two reports on one audit ring

The wire command `Status` and the system call `sys_hsm_status` serialize the
same snapshot behind different headers.  The decoders below read each layout
at the offsets that its document gives; the two reports decode to the same
count, total and events, and everything beyond the counts is filler.
-/

namespace IsoLightK0

open Bytes

/-- The 12 octets of an event, read back. -/
def EnrollEvent.ofBytes (bytes : List Byte) : EnrollEvent where
  seq := wordOfLe 32 (bytes.take 4)
  slotIdx := (bytes[4]?).getD 0
  result := (bytes[5]?).getD 0
  busKind := (bytes[6]?).getD 0
  pad := (bytes[7]?).getD 0
  pkHashPrefix := Buf.ofList 4 (bytes.drop 8)

theorem EnrollEvent.ofBytes_toBytes (e : EnrollEvent) :
    EnrollEvent.ofBytes e.toBytes = e := by
  have hseq : e.toBytes.take 4 = wordToLe 4 e.seq := by
    unfold EnrollEvent.toBytes
    rw [List.append_assoc, List.take_left' (length_wordToLe 4 e.seq)]
  have hprefix : e.toBytes.drop 8 = e.pkHashPrefix.toList := by
    have hlength : (wordToLe 4 e.seq ++
        [e.slotIdx, e.result, e.busKind, e.pad]).length = 8 := by simp
    exact List.drop_left' hlength
  unfold EnrollEvent.ofBytes
  rw [hseq, hprefix, wordOfLe_wordToLe _ (by omega), Buf.ofList_toList]
  rfl

def decodeEvents (count : ℕ) (table : List Byte) : List EnrollEvent :=
  (List.range count).map fun i => EnrollEvent.ofBytes (record 12 i table)

theorem decodeEvents_flatMap (events : List EnrollEvent) (rest : List Byte) :
    decodeEvents events.length (events.flatMap EnrollEvent.toBytes ++ rest) =
      events := by
  apply List.ext_getElem
  · simp [decodeEvents]
  · intro i hi hi'
    simp only [decodeEvents, List.getElem_map, List.getElem_range]
    rw [record_flatMap EnrollEvent.length_toBytes events rest hi',
      EnrollEvent.ofBytes_toBytes]

/-- What a reader learns about the audit ring. -/
structure AuditReport where
  count : ℕ
  total : BitVec 32
  events : List EnrollEvent

/-- The payload of a wire `Status` response: count at 0, total at 2, events
from 8 on. -/
def decodeWireStatus (payload : List Byte) : AuditReport where
  count := ofLe (payload.take 2)
  total := wordOfLe 32 ((payload.drop 2).take 4)
  events := decodeEvents (ofLe (payload.take 2)) (payload.drop 8)

/-- The number of status entries in a reply of `sys_hsm_status`. -/
def replySlotCount (reply : List Byte) : ℕ := ofLe (reply.take 2)

def replyEntry (reply : List Byte) (i : ℕ) : List Byte :=
  record 8 i (reply.drop 8)

/-- The octets at event position `i` of a reply. -/
def replyEvent (reply : List Byte) (i : ℕ) : List Byte :=
  record 12 i (reply.drop 72)

/-- A reply of `sys_hsm_status`: event count at 2, total at 4, events from 72
on. -/
def decodeGapStatus (reply : List Byte) : AuditReport where
  count := ofLe ((reply.drop 2).take 2)
  total := wordOfLe 32 ((reply.drop 4).take 4)
  events := decodeEvents (ofLe ((reply.drop 2).take 2)) (reply.drop 72)

/-- The report that the snapshot of a ring amounts to. -/
def auditReport (ring : AuditRing) : AuditReport :=
  let snapshot := auditSnapshot ring auditRingCapacity
  { count := snapshot.1.length
    total := snapshot.2
    events := snapshot.1 }

/-- The payload of a frame, as long as its header says. -/
def framePayload (frame : WireFrame) : List Byte :=
  frame.buf.slice 16 (decodeHeader frame.buf).payloadLen.toNat

theorem ofLe_toLe_two {n : ℕ} (h : n ≤ 32) : ofLe (toLe 2 n) = n :=
  ofLe_toLe_of_lt (by omega)

theorem decodeWireStatus_statusPayload (ring : AuditRing) :
    decodeWireStatus (Wire.statusPayload ring).bytes = auditReport ring := by
  have hle : (auditSnapshot ring auditRingCapacity).1.length ≤ 32 :=
    length_auditSnapshot_le ring auditRingCapacity
  unfold Wire.statusPayload auditReport
  dsimp only
  generalize auditSnapshot ring auditRingCapacity = snapshot at hle ⊢
  obtain ⟨events, total⟩ := snapshot
  have hcount : (toLe 2 events.length ++ wordToLe 4 total ++ [0, 0] ++
      events.flatMap EnrollEvent.toBytes).take 2 = toLe 2 events.length := by
    simp only [List.append_assoc]
    exact List.take_left' (length_toLe 2 _)
  have htotal : ((toLe 2 events.length ++ wordToLe 4 total ++ [0, 0] ++
      events.flatMap EnrollEvent.toBytes).drop 2).take 4 =
        wordToLe 4 total := by
    simp only [List.append_assoc]
    rw [List.drop_left' (length_toLe 2 _),
      List.take_left' (length_wordToLe 4 total)]
  have hevents : (toLe 2 events.length ++ wordToLe 4 total ++ [0, 0] ++
      events.flatMap EnrollEvent.toBytes).drop 8 =
        events.flatMap EnrollEvent.toBytes ++ [] := by
    rw [List.append_nil]
    exact List.drop_left' (by simp)
  unfold decodeWireStatus
  rw [hcount, htotal, hevents, ofLe_toLe_two hle,
    wordOfLe_wordToLe _ (by omega), decodeEvents_flatMap]

/-- The frame that answers a `Status` request carries the report on the
ring. -/
theorem decodeWireStatus_handleStatus (K : Kernel) (reqId : BitVec 32)
    (out : Buf wireFrameMax) :
    decodeWireStatus (framePayload (Wire.handleStatus K reqId [] out)) =
      auditReport K.auditRing := by
  have hframe : Wire.handleStatus K reqId [] out =
      buildResponseFrame reqId .status .ok
        (Wire.statusPayload K.auditRing) out := rfl
  have hsmall : (Wire.statusPayload K.auditRing).bytes.length < 2 ^ 16 := by
    have hle := (Wire.statusPayload K.auditRing).length_le
    unfold wirePayloadMax wireFrameMax at hle
    omega
  have hlen : (decodeHeader
      (Wire.handleStatus K reqId [] out).buf).payloadLen.toNat =
        (Wire.statusPayload K.auditRing).bytes.length := by
    rw [hframe, decodeHeader_buildResponseFrame, BitVec.toNat_ofNat,
      Nat.mod_eq_of_lt hsmall]
  unfold framePayload
  rw [hlen, hframe, slice_buildResponseFrame_payload,
    decodeWireStatus_statusPayload]

/-! ## The reply of the system call -/

theorem length_statusEntry (info : HsmSlotInfo) :
    (statusEntry info).length = 8 := by
  simp [statusEntry]

/-- The reply as it lies in memory: a header of 8 octets, 8 entries, the
events and zeros. -/
structure ReplyLayout (K : Kernel) (reply : List Byte) : Prop where
  slotCount : reply.take 2 = toLe 2 (K.registry.enumerate 8).length
  count : (reply.drop 2).take 2 =
    toLe 2 (auditSnapshot K.auditRing auditRingCapacity).1.length
  total : (reply.drop 4).take 4 =
    wordToLe 4 (auditSnapshot K.auditRing auditRingCapacity).2
  entries : ∃ rest, reply.drop 8 =
    (statusInfos K.registry).flatMap statusEntry ++ rest
  events : reply.drop 72 =
    (auditSnapshot K.auditRing auditRingCapacity).1.flatMap
        EnrollEvent.toBytes ++
      List.replicate (384 - 12 *
        (auditSnapshot K.auditRing auditRingCapacity).1.length) 0

theorem gapStatus_layout (K : Kernel) : ReplyLayout K (gapStatus K) := by
  have hentries : ((statusInfos K.registry).flatMap statusEntry).length =
      64 := by
    rw [length_flatMap_of_size length_statusEntry, length_statusInfos]
  unfold gapStatus
  dsimp only
  set snapshot := auditSnapshot K.auditRing auditRingCapacity
  constructor
  · simp only [List.append_assoc]
    exact List.take_left' (length_toLe 2 _)
  · simp only [List.append_assoc]
    rw [List.drop_left' (length_toLe 2 _), List.take_left' (length_toLe 2 _)]
  · have hskip : (toLe 2 (K.registry.enumerate 8).length ++
        toLe 2 snapshot.1.length).length = 4 := by simp
    simp only [List.append_assoc]
    rw [← List.append_assoc, List.drop_left' hskip,
      List.take_left' (length_wordToLe 4 _)]
  · have hskip : (toLe 2 (K.registry.enumerate 8).length ++
        toLe 2 snapshot.1.length ++ wordToLe 4 snapshot.2).length = 8 := by
      simp
    refine ⟨snapshot.1.flatMap EnrollEvent.toBytes ++
      List.replicate (384 - 12 * snapshot.1.length) 0, ?_⟩
    rw [List.append_assoc, List.append_assoc, List.drop_left' hskip]
  · have hskip : (toLe 2 (K.registry.enumerate 8).length ++
        toLe 2 snapshot.1.length ++ wordToLe 4 snapshot.2 ++
        (statusInfos K.registry).flatMap statusEntry).length = 72 := by
      rw [List.length_append, hentries]
      simp
    rw [List.append_assoc, List.drop_left' hskip]

namespace ReplyLayout

variable {K : Kernel} {reply : List Byte}

theorem length_enumerate_le (r : HsmRegistry) : (r.enumerate 8).length ≤ 8 :=
  r.length_enumerate_le 8

theorem replySlotCount_eq (h : ReplyLayout K reply) :
    replySlotCount reply = (K.registry.enumerate 8).length := by
  have hle := length_enumerate_le K.registry
  unfold replySlotCount
  rw [h.slotCount]
  exact ofLe_toLe_two (by omega)

theorem decode (h : ReplyLayout K reply) :
    decodeGapStatus reply = auditReport K.auditRing := by
  have hle : (auditSnapshot K.auditRing auditRingCapacity).1.length ≤ 32 :=
    length_auditSnapshot_le K.auditRing auditRingCapacity
  unfold decodeGapStatus auditReport
  rw [h.count, h.total, h.events, ofLe_toLe_two hle,
    wordOfLe_wordToLe _ (by omega), decodeEvents_flatMap]

/-- Beyond the slot count the infos are the empty ones that `handle_status`
starts from. -/
theorem filler_entry (h : ReplyLayout K reply) {i : ℕ}
    (hcount : replySlotCount reply ≤ i) (hi : i < 8) :
    replyEntry reply i = [0xFF, 0, 0, 0, 0, 0, 0, 0] := by
  obtain ⟨rest, hentries⟩ := h.entries
  have hinfos : i < (statusInfos K.registry).length := by
    rw [length_statusInfos]
    exact hi
  have hinfo : (statusInfos K.registry)[i] = HsmSlotInfo.empty := by
    rw [h.replySlotCount_eq] at hcount
    simp only [statusInfos, List.getElem_append_right hcount,
      List.getElem_replicate]
  unfold replyEntry
  rw [hentries, record_flatMap length_statusEntry _ _ hinfos, hinfo]
  rfl

theorem filler_event (h : ReplyLayout K reply) {i : ℕ}
    (hcount : (decodeGapStatus reply).count ≤ i) (hi : i < 32) :
    replyEvent reply i = EnrollEvent.zero.toBytes := by
  rw [h.decode] at hcount
  obtain ⟨k, hk⟩ := Nat.exists_eq_add_of_le hcount
  have hzero : EnrollEvent.zero.toBytes = List.replicate 12 0 := rfl
  have hcapacity : (auditReport K.auditRing).count =
      (auditSnapshot K.auditRing auditRingCapacity).1.length := rfl
  unfold replyEvent
  rw [h.events, hk, hcapacity,
    record_after_flatMap EnrollEvent.length_toBytes, hzero]
  apply record_replicate
  omega

end ReplyLayout

/-! ## One ring, two reports -/

/-- A successful status call leaves the report in user memory. -/
theorem reply_of_syscall {ctx : SyscallContext} {K K' : Kernel}
    {user user' : Mem}
    (h : (handleStatus ctx).syscall K user = some ((0, user'), K')) :
    user'.read ctx.arg0.toNat gapStatusLen = gapStatus K := by
  obtain ⟨value, user'', K'', hcall, houtcome⟩ :=
    syscall_handleStatus ctx K user
  rw [h] at hcall
  -- every refusal has a nonzero code
  have hreported : user' = user.write ctx.arg0.toNat (gapStatus K) := by
    generalize hvalue : (0 : BitVec 64) = zero at hcall
    cases hcall
    cases houtcome with
    | shortBuffer hlen | wrongToken hlen htoken | badAddress hlen htoken hptr =>
      exact absurd hvalue (by decide)
    | reported hlen htoken hptr => rfl
  rw [hreported]
  exact user.read_write_of_length (length_gapStatus K)

/-- The reply of a successful `sys_hsm_status` and the wire `Status` response
built in the same state carry the same count, total and events.  In the reply
every entry beyond the slot count is the empty slot and every event position
beyond the event count is all zeros. -/
theorem statusReply_agrees_with_wire (K K' : Kernel) (ctx : SyscallContext)
    (user user' : Mem) (reqId : BitVec 32) (out : Buf wireFrameMax)
    (hreply : (handleStatus ctx).syscall K user =
      some ((0, user'), K')) :
    let reply := user'.read ctx.arg0.toNat gapStatusLen
    decodeWireStatus (framePayload (Wire.handleStatus K reqId [] out)) =
        decodeGapStatus reply ∧
      (∀ i, replySlotCount reply ≤ i → i < 8 →
        replyEntry reply i = [0xFF, 0, 0, 0, 0, 0, 0, 0]) ∧
      ∀ i, (decodeGapStatus reply).count ≤ i → i < auditRingCapacity →
        replyEvent reply i = EnrollEvent.zero.toBytes := by
  have hlayout : ReplyLayout K (user'.read ctx.arg0.toNat gapStatusLen) := by
    rw [reply_of_syscall hreply]
    exact gapStatus_layout K
  refine ⟨?_, ?_, ?_⟩
  · rw [decodeWireStatus_handleStatus, hlayout.decode]
  · intro i hcount hi
    exact hlayout.filler_entry hcount hi
  · intro i hcount hi
    exact hlayout.filler_event hcount hi

/-- A boot kernel with one recorded event reports it in the first position
and fills the other 31. -/
theorem statusReply_agrees_with_wire_one_event :
    ∃ user' K',
      (handleStatus ⟨16, 0x2000, 456, 1, 0, 0, 0⟩).syscall
          ((Kernel.boot [] Buf.zero Buf.zero 1 2).audit 0xFF 2 0 Buf.zero)
          (fun _ => 0) = some ((0, user'), K') ∧
      decodeWireStatus (framePayload (Wire.handleStatus
          ((Kernel.boot [] Buf.zero Buf.zero 1 2).audit 0xFF 2 0 Buf.zero)
          7 [] Buf.zero)) =
        decodeGapStatus (user'.read 0x2000 gapStatusLen) := by
  have hcall :
      (handleStatus ⟨16, 0x2000, 456, 1, 0, 0, 0⟩).syscall
          ((Kernel.boot [] Buf.zero Buf.zero 1 2).audit 0xFF 2 0 Buf.zero)
          (fun _ => 0) = some ((0, _), _) := rfl
  exact ⟨_, _, hcall,
    (statusReply_agrees_with_wire _ _ _ _ _ 7 Buf.zero hcall).1⟩

end IsoLightK0
