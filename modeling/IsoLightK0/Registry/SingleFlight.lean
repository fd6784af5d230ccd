import IsoLightK0.Registry.BusWrite
import IsoLightK0.Support.Mailbox

/-!
# The single-flight protocol of the wire bus

Any sequence of reads and writes, with any data, on one open wire bus.  An
accepted write leaves a well-formed answer to the request pending; a refused
write or read changes nothing; while a frame is pending every write is
refused; and a successful read takes exactly the pending frame.

The last section reads the bus as a single-slot mailbox of frames: every run
of the bus is a run of the mailbox.  Whatever a request makes the kernel do in
nested calls, the frames that writes leave pending are delivered once and in
order.
-/

namespace IsoLightK0

open Bytes Runs

/-- The pending frame answers the request: it decodes to an `Ok` response to
the request's command or to an error frame, and has the length its header
states. -/
def Wire.RespondsTo (request : WireFrameHeader) (r : Ring3ProcessBus) :
    Prop :=
  let hdr := decodeHeader r.pendingResponse
  hdr.magic = wireMagic ∧ hdr.version = 1 ∧ hdr.reqId = request.reqId ∧
    r.responseLen = 16 + hdr.payloadLen.toNat ∧ r.responseLen ≤ 4096 ∧
    ((hdr.cmd = request.cmd ||| 0x8000 ∧ hdr.status = 0) ∨
      (hdr.cmd = 0xFFFF ∧ hdr.payloadLen = 0 ∧
        1 ≤ hdr.status.toNat ∧ hdr.status.toNat ≤ 4))

theorem WireStatus.code_range {status : WireStatus} (h : status ≠ .ok) :
    1 ≤ status.code.toNat ∧ status.code.toNat ≤ 4 := by
  cases status with
  | ok => exact (h rfl).elim
  | badFrame | unknownCmd | denied | internal => decide

/-- Storing a built answer leaves a frame that a receiver decodes as one. -/
theorem Wire.IsAnswer.respondsTo {request : WireFrameHeader}
    {build : FrameBuilder} (h : Wire.IsAnswer request build)
    (r : Ring3ProcessBus) (out : Buf wireFrameMax) :
    Wire.RespondsTo request (r.setPending (build out)) := by
  dsimp only [Wire.RespondsTo, Ring3ProcessBus.setPending]
  rcases h with ⟨cmd, payload, hcmd, -, rfl⟩ | ⟨status, hstatus, rfl⟩
  · have hle := payload.length_le
    have hlen :
        (BitVec.ofNat 16 payload.bytes.length).toNat =
          payload.bytes.length := by
      rw [BitVec.toNat_ofNat, Nat.mod_eq_of_lt]
      unfold wirePayloadMax wireFrameMax at hle
      omega
    rw [decodeHeader_buildResponseFrame]
    refine ⟨rfl, rfl, rfl, ?_, ?_, .inl ⟨?_, rfl⟩⟩
    · dsimp only
      rw [hlen]
      rfl
    · exact (buildResponseFrame request.reqId cmd .ok payload out).len_le
    · dsimp only
      rw [hcmd]
      rfl
  · rw [decodeHeader_buildErrorFrameInplace]
    refine ⟨rfl, rfl, rfl, rfl, ?_, .inr ⟨rfl, rfl, ?_⟩⟩
    · exact (buildErrorFrameInplace request.reqId status out).len_le
    · exact WireStatus.code_range hstatus

namespace Kernel

theorem busWrite_wire_spec (C : Crates) {K : Kernel} {i : SlotIdx}
    {r : Ring3ProcessBus} (hbus : K.bus i = .ring3Process r)
    (data : List Byte) :
    ∃ result K' r', K.busWrite C i data = some (result, K') ∧
      K'.bus i = .ring3Process r' ∧ r'.openState = r.openState ∧
      ((∃ e, result = .error e ∧ r' = r) ∨
        (result = .ok data.length ∧ r.responseLen = 0 ∧
          Wire.RespondsTo (Wire.requestHeader data) r')) := by
  rcases K.busWrite_ring3_cases C hbus data with
    ⟨-, e, hwrite⟩ |
    ⟨⟨-, -, hidle, -⟩, build, K₁, hbuses, hanswer, -, hwrite⟩
  · exact ⟨.error e, K, r, hwrite, hbus, rfl, .inl ⟨e, rfl, rfl⟩⟩
  · obtain ⟨r₁, hbus₁, hopen⟩ := bus_storeResponse hbus hbuses build
    have hresponds := hanswer.respondsTo r₁ r₁.pendingResponse
    exact ⟨.ok data.length, Wire.storeResponse K₁ i build,
      r₁.setPending (build r₁.pendingResponse), hwrite, hbus₁, hopen,
      .inr ⟨rfl, hidle, hresponds⟩⟩

theorem busRead_wire_spec {K : Kernel} {i : SlotIdx} {r : Ring3ProcessBus}
    (hbus : K.bus i = .ring3Process r) (outLen : ℕ) :
    ∃ r', (K.busRead i outLen).2.bus i = .ring3Process r' ∧
      r'.openState = r.openState ∧
      ((∃ e, (K.busRead i outLen).1 = .error e ∧ r' = r) ∨
        ((K.busRead i outLen).1 =
            .ok (r.pendingResponse.slice 0 r.responseLen) ∧
          r.responseLen ≠ 0 ∧ r'.responseLen = 0)) := by
  have hread : (K.busRead i outLen).1 = (r.read outLen).1 := by
    simp [busRead, hbus, BusInstance.read]
  have hafter :
      (K.busRead i outLen).2.bus i = .ring3Process (r.read outLen).2 := by
    simp [busRead, hbus, BusInstance.read]
  refine ⟨(r.read outLen).2, hafter, ?_⟩
  rw [hread]
  unfold Ring3ProcessBus.read
  split
  · exact ⟨rfl, .inl ⟨_, rfl, rfl⟩⟩
  · split
    · exact ⟨rfl, .inl ⟨_, rfl, rfl⟩⟩
    · rename_i hpending
      split
      · exact ⟨rfl, .inl ⟨_, rfl, rfl⟩⟩
      · exact ⟨rfl, .inr ⟨rfl, hpending, rfl⟩⟩

end Kernel

/-! ## Runs and the mailbox -/

def Ring3ProcessBus.pendingFrame (r : Ring3ProcessBus) :
    Option (List Byte) :=
  if r.responseLen = 0 then none
  else some (r.pendingResponse.slice 0 r.responseLen)

inductive WireCall
  | write (data : List Byte)
  | read (outLen : ℕ)

/-- The result of a call; for a write, with the frame that is pending
afterwards. -/
inductive WireResult
  | written (result : Except BusError ℕ) (pending : Option (List Byte))
  | read (result : Except BusError (List Byte))

def Kernel.pendingFrame (K : Kernel) (i : SlotIdx) : Option (List Byte) :=
  match K.bus i with
  | .ring3Process r => r.pendingFrame
  | _ => none

def wireStep (C : Crates) (i : SlotIdx) (K : Kernel) :
    WireCall → Option (WireResult × Kernel)
  | .write data =>
    (K.busWrite C i data).map fun (r, K) =>
      (.written r (K.pendingFrame i), K)
  | .read outLen =>
    some (.read (K.busRead i outLen).1, (K.busRead i outLen).2)

/-- A call as the mailbox sees it: an accepted write puts the frame it leaves
pending, a successful read takes what it returns. -/
def mailboxEvent : WireCall × WireResult → Mailbox.Event (List Byte)
  | (_, .written (.ok _) (some frame)) => .put frame
  | (_, .read (.ok bytes)) => .take bytes
  | _ => .idle

theorem Wire.RespondsTo.pendingFrame {request : WireFrameHeader}
    {r : Ring3ProcessBus} (h : Wire.RespondsTo request r) :
    r.pendingFrame = some (r.pendingResponse.slice 0 r.responseLen) := by
  obtain ⟨-, -, -, hlen, -⟩ := h
  have hne : r.responseLen ≠ 0 := by omega
  simp [Ring3ProcessBus.pendingFrame, hne]

theorem wireStep_mailbox {C : Crates} {i : SlotIdx} {K K' : Kernel}
    {r : Ring3ProcessBus} {call : WireCall} {result : WireResult}
    (hbus : K.bus i = .ring3Process r) (hopen : r.openState = true)
    (hstep : wireStep C i K call = some (result, K')) :
    ∃ r', K'.bus i = .ring3Process r' ∧ r'.openState = true ∧
      Mailbox.Step r.pendingFrame (mailboxEvent (call, result))
        r'.pendingFrame := by
  cases call with
  | write data =>
    obtain ⟨written, K₁, r', hwrite, hbus', hopen', hcases⟩ :=
      K.busWrite_wire_spec C hbus data
    simp only [wireStep, hwrite, Option.map_some, Option.some.injEq,
      Prod.mk.injEq] at hstep
    obtain ⟨rfl, rfl⟩ := hstep
    refine ⟨r', hbus', hopen'.trans hopen, ?_⟩
    rcases hcases with ⟨e, rfl, rfl⟩ | ⟨rfl, hidle, hresponds⟩
    · exact .idle _
    · have hbefore : r.pendingFrame = none := by
        simp [Ring3ProcessBus.pendingFrame, hidle]
      have hafter : K₁.pendingFrame i = r'.pendingFrame := by
        simp [Kernel.pendingFrame, hbus']
      rw [hbefore, hafter, hresponds.pendingFrame]
      exact .put _
  | read outLen =>
    obtain ⟨r', hbus', hopen', hcases⟩ := Kernel.busRead_wire_spec hbus outLen
    simp only [wireStep, Option.some.injEq, Prod.mk.injEq] at hstep
    obtain ⟨rfl, rfl⟩ := hstep
    refine ⟨r', hbus', hopen'.trans hopen, ?_⟩
    rcases hcases with ⟨e, hread, rfl⟩ | ⟨hread, hpending, hempty⟩
    · rw [hread]
      exact .idle _
    · rw [hread]
      simp only [Ring3ProcessBus.pendingFrame, hpending, hempty, if_false,
        if_true]
      exact .take _

/-- Every run of reads and writes on an open wire bus is a run of the
mailbox. -/
theorem wireRun_refines_mailbox {C : Crates} {i : SlotIdx}
    {K₀ K : Kernel} {r₀ : Ring3ProcessBus}
    (hbus₀ : K₀.bus i = .ring3Process r₀) (hopen₀ : r₀.openState = true)
    {history : List (WireCall × WireResult)}
    (hrun : Run (wireStep C i) K₀ history K) :
    ∃ r, K.bus i = .ring3Process r ∧ r.openState = true ∧
      Mailbox.Steps r₀.pendingFrame (history.map mailboxEvent)
        r.pendingFrame := by
  refine hrun.history_invariant
    (I := fun history K => ∃ r, K.bus i = .ring3Process r ∧
      r.openState = true ∧ Mailbox.Steps r₀.pendingFrame
        (history.map mailboxEvent) r.pendingFrame) ?_ ?_
  · exact ⟨r₀, hbus₀, hopen₀, .start⟩
  · rintro history K call result K' - ⟨r, hbus, hopen, hsteps⟩ hstep
    obtain ⟨r', hbus', hopen', hmail⟩ := wireStep_mailbox hbus hopen hstep
    exact ⟨r', hbus', hopen', .next hsteps hmail⟩

/-- In every state that reads and writes on an open wire bus reach: an
accepted write leaves a decodable answer to its request, a refused write
leaves the bus as it was, a pending frame makes every write fail, a refused
read loses nothing and a successful one takes exactly the pending frame; and
the frames put by the run are the frames it delivered followed by the one
still pending. -/
theorem wire_single_flight (C : Crates) (i : SlotIdx) {K₀ K : Kernel}
    {r₀ : Ring3ProcessBus} (hbus₀ : K₀.bus i = .ring3Process r₀)
    (hopen₀ : r₀.openState = true)
    {history : List (WireCall × WireResult)}
    (hrun : Run (wireStep C i) K₀ history K) :
    ∃ r, K.bus i = .ring3Process r ∧ r.openState = true ∧
      (∀ data, ∃ result K' r',
        K.busWrite C i data = some (result, K') ∧
          K'.bus i = .ring3Process r' ∧
          (∀ n, result = .ok n →
            Wire.RespondsTo (Wire.requestHeader data) r') ∧
          (∀ e, result = .error e → r' = r) ∧
          (r.responseLen ≠ 0 → ∃ e, result = .error e)) ∧
      (∀ outLen, ∃ r',
        (K.busRead i outLen).2.bus i = .ring3Process r' ∧
          (∀ e, (K.busRead i outLen).1 = .error e → r' = r) ∧
          ∀ bytes, (K.busRead i outLen).1 = .ok bytes →
            r.responseLen ≠ 0 ∧
              bytes = r.pendingResponse.slice 0 r.responseLen ∧
              r'.responseLen = 0) ∧
      r₀.pendingFrame.toList ++
          Mailbox.puts (history.map mailboxEvent) =
        Mailbox.takes (history.map mailboxEvent) ++
          r.pendingFrame.toList := by
  obtain ⟨r, hbus, hopen, hsteps⟩ := wireRun_refines_mailbox hbus₀ hopen₀ hrun
  refine ⟨r, hbus, hopen, ?_, ?_, hsteps.conservation⟩
  · intro data
    obtain ⟨result, K', r', hwrite, hbus', -, hcases⟩ :=
      K.busWrite_wire_spec C hbus data
    refine ⟨result, K', r', hwrite, hbus', ?_⟩
    rcases hcases with ⟨e, rfl, rfl⟩ | ⟨rfl, hidle, hresponds⟩
    · refine ⟨?_, fun _ _ => rfl, fun _ => ⟨e, rfl⟩⟩
      intro n hn
      cases hn
    · refine ⟨fun _ _ => hresponds, ?_, fun hne => (hne hidle).elim⟩
      intro e he
      cases he
  · intro outLen
    obtain ⟨r', hbus', -, hcases⟩ := Kernel.busRead_wire_spec hbus outLen
    refine ⟨r', hbus', ?_⟩
    rcases hcases with ⟨e, hread, rfl⟩ | ⟨hread, hpending, hempty⟩
    · refine ⟨fun _ _ => rfl, ?_⟩
      intro bytes hbytes
      rw [hread] at hbytes
      cases hbytes
    · refine ⟨?_, ?_⟩
      · intro e he
        rw [hread] at he
        cases he
      · intro bytes hbytes
        rw [hread] at hbytes
        cases hbytes
        exact ⟨hpending, rfl, hempty⟩

def pingRequest : List Byte :=
  [0x4C, 0x57, 0x4B, 0x30, 1, 0, 1, 0, 7, 0, 0, 0, 0, 0, 0, 0]

/-- Once a `Ping` has been accepted, its answer is pending and every further
write is refused. -/
theorem wire_single_flight_after_ping :
    ∃ history K, Run (wireStep Crates.inert 0) Kernel.wire history K ∧
      history.length = 1 ∧ (K.pendingFrame 0).isSome ∧
      ∀ data, ∃ e K', K.busWrite Crates.inert 0 data =
        some (.error e, K') := by
  have hrun : Run (wireStep Crates.inert 0) Kernel.wire _ _ :=
    Run.next (a := .write pingRequest) Run.start rfl
  refine ⟨_, _, hrun, rfl, rfl, ?_⟩
  intro data
  obtain ⟨r, hbus, -, hwrite, -⟩ :=
    wire_single_flight Crates.inert 0 rfl rfl hrun
  have hpending : r.responseLen ≠ 0 := by
    cases hbus
    decide
  obtain ⟨result, K', r', hresult, -, -, -, hrefused⟩ := hwrite data
  obtain ⟨e, rfl⟩ := hrefused hpending
  exact ⟨e, K', hresult⟩

end IsoLightK0
