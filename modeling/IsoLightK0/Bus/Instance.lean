import IsoLightK0.Bus.Software
import IsoLightK0.Bus.Wire

/-!
# The wire bus and the bus enumeration

`Ring3ProcessBus` binds an IPC endpoint and holds at most one pending response
frame.  `BusInstance` dispatches to the active transport.  Writing to a wire
bus re-enters the registry, so `write` is defined with the registry; every
other operation is local to the bus and is defined here.
-/

namespace IsoLightK0

open Bytes

abbrev EndpointId := BitVec 16

def EndpointId.invalid : EndpointId := 0xFFFF

/-- `ipc::endpoint_exists`, over the identifiers of the registered
endpoints. -/
def endpointExists (endpoints : List EndpointId) (id : EndpointId) : Bool :=
  id ≠ EndpointId.invalid ∧ id ∈ endpoints

@[ext] structure Ring3ProcessBus where
  endpoint : EndpointId
  openState : Bool
  pendingResponse : Buf wireFrameMax
  responseLen : ℕ
  responseLen_le : responseLen ≤ wireFrameMax

namespace Ring3ProcessBus

def new : Ring3ProcessBus where
  endpoint := EndpointId.invalid
  openState := false
  pendingResponse := Buf.zero
  responseLen := 0
  responseLen_le := Nat.zero_le _

def openBus (b : Ring3ProcessBus) (init : List Byte)
    (endpoints : List EndpointId) : Except BusError Unit × Ring3ProcessBus :=
  if b.openState then
    (.error .alreadyOpen, b)
  else
    match init with
    | lo :: hi :: reserved =>
      let endpoint : EndpointId := wordOfLe 16 [lo, hi]
      if ∃ octet ∈ reserved, octet ≠ 0 then (.error .badInit, b)
      else if endpoint = EndpointId.invalid then (.error .badInit, b)
      else if endpointExists endpoints endpoint = false then
        (.error .badInit, b)
      else (.ok (), { b with endpoint := endpoint, openState := true })
    | _ => (.error .badInit, b)

/-- `close` keeps the pending frame. -/
def close (b : Ring3ProcessBus) : Except BusError Unit × Ring3ProcessBus :=
  if b.openState then
    (.ok (), { b with endpoint := EndpointId.invalid, openState := false })
  else
    (.error .notOpen, b)

/-- `read` into a slice of `outLen` octets. -/
def read (b : Ring3ProcessBus) (outLen : ℕ) :
    Except BusError (List Byte) × Ring3ProcessBus :=
  if b.openState = false then
    (.error .notOpen, b)
  else if b.responseLen = 0 then
    (.error .wireNotReady, b)
  else if outLen < b.responseLen then
    (.error .internal, b)
  else
    (.ok (b.pendingResponse.slice 0 b.responseLen),
      { b with
        pendingResponse := Buf.zeroized
        responseLen := 0
        responseLen_le := Nat.zero_le _ })

def poll (b : Ring3ProcessBus) : Except BusError BusReady :=
  if b.openState then
    .ok
      { readable := b.responseLen ≠ 0
        writable := b.responseLen = 0
        closed := false }
  else
    .error .notOpen

def zeroize (_b : Ring3ProcessBus) : Ring3ProcessBus where
  pendingResponse := Buf.zeroized
  responseLen := 0
  endpoint := EndpointId.invalid
  openState := false
  responseLen_le := Nat.zero_le _

theorem openBus_openState {b : Ring3ProcessBus} {init : List Byte}
    {endpoints : List EndpointId}
    (hok : (b.openBus init endpoints).1 = .ok ()) :
    (b.openBus init endpoints).2.openState = true := by
  revert hok
  fun_cases openBus b init endpoints <;> simp

/-- Store a built frame as the pending response. -/
def setPending (b : Ring3ProcessBus) (frame : WireFrame) : Ring3ProcessBus :=
  { b with
    pendingResponse := frame.buf
    responseLen := frame.len
    responseLen_le := frame.len_le }

end Ring3ProcessBus

/-! ## The bus enumeration -/

inductive BusInstance
  | empty
  | software (s : SoftwareBus)
  | ring3Process (r : Ring3ProcessBus)
  | usb
  | spi
  | serial
  | smartCard
  | network

namespace BusInstance

def new : BusKind → BusInstance
  | .software => software SoftwareBus.new
  | .ring3Process => ring3Process Ring3ProcessBus.new
  | .usb => usb
  | .spi => spi
  | .serial => serial
  | .smartCard => smartCard
  | .network => network

/-- `open`; the result is `none` while the DRBG does not return. -/
def openBus (b : BusInstance) (init : List Byte)
    (endpoints : List EndpointId) (drbg : CapDrbg) :
    Option (Except BusError Unit × BusInstance × CapDrbg) :=
  match b with
  | software s =>
    (s.openBus init drbg).map fun (r, s, drbg) => (r, software s, drbg)
  | ring3Process r =>
    let (result, r) := r.openBus init endpoints
    some (result, ring3Process r, drbg)
  | empty => some (.error .notOpen, b, drbg)
  | _ => some (.error .notImplemented, b, drbg)

def close : BusInstance → Except BusError Unit × BusInstance
  | software s => (s.close.1, software s.close.2)
  | ring3Process r => (r.close.1, ring3Process r.close.2)
  | empty => (.error .notOpen, empty)
  | b => (.error .notImplemented, b)

def read (b : BusInstance) (outLen : ℕ) :
    Except BusError (List Byte) × BusInstance :=
  match b with
  | software s => ((s.read outLen).1, software (s.read outLen).2)
  | ring3Process r => ((r.read outLen).1, ring3Process (r.read outLen).2)
  | empty => (.error .notOpen, empty)
  | b => (.error .notImplemented, b)

def poll : BusInstance → Except BusError BusReady
  | software s => s.poll
  | ring3Process r => r.poll
  | empty => .error .notOpen
  | _ => .error .notImplemented

def kind : BusInstance → BusKind
  | software _ => .software
  | ring3Process _ => .ring3Process
  | empty => .software
  | usb => .usb
  | spi => .spi
  | serial => .serial
  | smartCard => .smartCard
  | network => .network

theorem length_read_le {b : BusInstance} {outLen : ℕ} {bytes : List Byte}
    (h : (b.read outLen).1 = .ok bytes) : bytes.length ≤ outLen := by
  cases b with
  | software s =>
    have hread : (s.read outLen).1 = .ok bytes := h
    unfold SoftwareBus.read at hread
    split at hread
    · cases hread
      rw [Buf.length_slice]
      exact min_le_right _ _
    · cases hread
  | ring3Process r =>
    have hread : (r.read outLen).1 = .ok bytes := h
    unfold Ring3ProcessBus.read at hread
    split_ifs at hread with _ _ hsmall
    cases hread
    rw [Buf.length_slice]
    exact Nat.not_lt.mp hsmall
  | empty | usb | spi | serial | smartCard | network => cases h

/-- The bus is a software or wire bus in its open state. -/
def IsOpen : BusInstance → Prop
  | software s => s.openState = true
  | ring3Process r => r.openState = true
  | _ => False

theorem openBus_drawn {b b' : BusInstance} {init : List Byte}
    {endpoints : List EndpointId} {drbg drbg' : CapDrbg}
    {r : Except BusError Unit}
    (h : b.openBus init endpoints drbg = some (r, b', drbg')) :
    DrawnFrom drbg drbg' := by
  cases b with
  | software s =>
    obtain ⟨_, hs, heq⟩ := Option.map_eq_some_iff.mp h
    cases heq
    exact SoftwareBus.openBus_drawn hs
  | ring3Process r | empty | usb | spi | serial | smartCard | network =>
    cases h
    exact .refl drbg

/-- `bus` is what opening a newly constructed bus of this kind commits. -/
def FreshlyOpened (kind : BusKind) (init : List Byte)
    (endpoints : List EndpointId) (bus : BusInstance) : Prop :=
  ∃ drbg drbg',
    (new kind).openBus init endpoints drbg = some (.ok (), bus, drbg')

theorem FreshlyOpened.spec {kind : BusKind} {init : List Byte}
    {endpoints : List EndpointId} {bus : BusInstance}
    (h : FreshlyOpened kind init endpoints bus) :
    bus.IsOpen ∧ bus.kind = kind ∧
      (kind = .software ∨ kind = .ring3Process) := by
  obtain ⟨drbg, drbg', hopen⟩ := h
  cases kind with
  | software =>
    obtain ⟨⟨r, s, d⟩, hs, heq⟩ := Option.map_eq_some_iff.mp hopen
    obtain ⟨rfl, rfl, rfl⟩ : r = .ok () ∧ software s = bus ∧ d = drbg' := by
      simpa using heq
    refine ⟨?_, rfl, .inl rfl⟩
    exact SoftwareBus.openBus_openState hs
  | ring3Process =>
    simp only [new, openBus, Option.some.injEq, Prod.mk.injEq] at hopen
    obtain ⟨hok, rfl, -⟩ := hopen
    refine ⟨?_, rfl, .inr rfl⟩
    exact Ring3ProcessBus.openBus_openState hok
  | usb | spi | serial | smartCard | network => simp [new, openBus] at hopen

/-- The behaviour of dropping a bus: `none` when the destructor does not
return. -/
abbrev Destructor := BusInstance → Option Unit

/-- The first statement of `zeroize`: clear the active payload. -/
def zeroizePayload : BusInstance → BusInstance
  | software s => software s.zeroize
  | ring3Process r => ring3Process r.zeroize
  | b => b

/-- `zeroize`, with the destructor that the final assignment runs. -/
def zeroize (destroy : Destructor) (b : BusInstance) : Option BusInstance :=
  (destroy b.zeroizePayload).map fun _ => empty

/-- `Drop::drop` to a recursion depth: one call of `zeroize`, which drops the
value it overwrites one level deeper.  The fields of the variant that is left,
`Empty`, need no destructor. -/
def dropFuel : ℕ → Destructor
  | 0 => fun _ => none
  | depth + 1 => fun b => (zeroize (dropFuel depth) b).map fun _ => ()

theorem dropFuel_eq_none (depth : ℕ) (b : BusInstance) :
    dropFuel depth b = none := by
  induction depth generalizing b with
  | zero => rfl
  | succ depth ih => simp [dropFuel, zeroize, ih]

end BusInstance

end IsoLightK0
