import IsoLightK0.Bus.Encryptions
import IsoLightK0.Registry.SingleFlight

/-!
# Calls on the bus of a slot

Any sequence of `open`, `close`, `read` and `write` on the bus of one slot, of
either transport that can be opened, while the rest of the kernel may change in
any way between two calls.

`poll` of a wire bus always tells the truth.  A software bus judges by the room
in its ring, which is the rule of the echo role; a hash bus overwrites at most
half of the ring, and an encryption bus overwrites what is there, so that the
room says nothing.
-/

namespace IsoLightK0

open Bytes Runs

/-- A call on the bus of a slot.  `open` finds the endpoints and the DRBG in any
state; `elsewhere` replaces everything but the bus. -/
inductive SlotCall
  | openBus (init : List Byte) (endpoints : List EndpointId) (drbg : CapDrbg)
  | close
  | read (outLen : ℕ)
  | write (data : List Byte)
  | elsewhere (K : Kernel)

def slotStep (C : Crates) (i : SlotIdx) (K : Kernel) :
    SlotCall → Option (BusAnswer × Kernel)
  | .openBus init endpoints drbg =>
    ((K.bus i).openBus init endpoints drbg).map fun (r, bus, _) =>
      (.done r, K.setBus i bus)
  | .close => some (.done (K.bus i).close.1, K.setBus i (K.bus i).close.2)
  | .read outLen =>
    some (.octets (K.busRead i outLen).1, (K.busRead i outLen).2)
  | .write data =>
    (K.busWrite C i data).map fun (r, K) => (.count r, K)
  | .elsewhere K' => some (.done (.ok ()), K'.setBus i (K.bus i))

/-- What is known of every software bus: an open hash bus holds at most one
digest, and an open encryption bus has a key. -/
def SoftwareBus.Sound (s : SoftwareBus) : Prop :=
  s.openState = true →
    (s.role = .blake3 → s.writeLen ≤ blake3OutLen) ∧
      (s.role = .aesGcm → ∃ state, s.aesState = some state)

/-- What is known of every wire bus: without a pending frame its buffer is
empty. -/
def Ring3ProcessBus.Sound (r : Ring3ProcessBus) : Prop :=
  r.responseLen = 0 → r.pendingResponse = Buf.zero

/-- A software or wire bus as above. -/
def BusInstance.Sound : BusInstance → Prop
  | .software s => s.Sound
  | .ring3Process r => r.Sound
  | _ => False

namespace SoftwareBus

theorem Sound.new : SoftwareBus.new.Sound := by
  rintro ⟨⟩

variable {s : SoftwareBus}

theorem Sound.close (h : s.Sound) : s.close.2.Sound := by
  unfold SoftwareBus.close
  split
  · rintro ⟨⟩
  · exact h

theorem Sound.read (h : s.Sound) (outLen : ℕ) : (s.read outLen).2.Sound := by
  unfold SoftwareBus.read
  split
  · exact h
  · exact h

theorem Sound.openBus {s' : SoftwareBus} {init : List Byte}
    {drbg drbg' : CapDrbg} {r : Except BusError Unit} (h : s.Sound)
    (hopen : s.openBus init drbg = some (r, s', drbg')) : s'.Sound := by
  rcases openBus_cases hopen with
    ⟨e, rfl, rfl⟩ | ⟨rfl, -, -, role, aesState, rfl, haes⟩
  · exact h
  · refine fun _ => ⟨fun _ => Nat.zero_le _, fun hrole => ?_⟩
    rcases haes with ⟨-, key, rfl⟩ | ⟨hother, -⟩
    · exact ⟨_, rfl⟩
    · exact (hother hrole).elim

theorem Sound.write (h : s.Sound) (C : Crates) (data : List Byte) :
    (s.write C data).2.Sound := by
  obtain ⟨s', heq, hopen', hrole'⟩ := s.write_sameTransport C data
  obtain rfl := BusInstance.software.inj heq
  intro hopen
  have hopen₀ : s.openState = true := hopen'.symm.trans hopen
  obtain ⟨hlen, hkey⟩ := h hopen₀
  rw [hrole']
  constructor
  · intro hblake3
    have hwrite := write_of_open C s data hopen₀
    rw [hblake3] at hwrite
    rw [hwrite]
    cases hdigest : C.blake3 data with
    | none =>
      rw [writeBlake3_of_none C s hdigest]
      exact hlen hblake3
    | some digest => simp [writeBlake3, hdigest, swBusBuf, blake3OutLen]
  · intro haes
    rcases write_cases C s data with
      ⟨-, e, hrefused⟩ | ⟨-, hother, -⟩ | ⟨state, henc⟩
    · rw [hrefused]
      exact hkey haes
    · exact (hother haes).elim
    · exact ⟨_, henc.state_after⟩

end SoftwareBus

namespace Ring3ProcessBus

variable {r : Ring3ProcessBus}

theorem Sound.openBus (h : r.Sound) (init : List Byte)
    (endpoints : List EndpointId) : (r.openBus init endpoints).2.Sound := by
  fun_cases Ring3ProcessBus.openBus r init endpoints
  all_goals exact h

theorem Sound.close (h : r.Sound) : r.close.2.Sound := by
  unfold Ring3ProcessBus.close
  split
  · exact h
  · exact h

theorem Sound.read (h : r.Sound) (outLen : ℕ) :
    (r.read outLen).2.Sound := by
  fun_cases Ring3ProcessBus.read r outLen
  case case4 => exact fun _ => rfl
  all_goals exact h

end Ring3ProcessBus

variable {r : Ring3ProcessBus} {C : Crates} {i : SlotIdx} {K K' : Kernel}
  {call : SlotCall} {answer : BusAnswer} {history : List (SlotCall × BusAnswer)}

theorem Wire.RespondsTo.responseLen_ne {request : WireFrameHeader}
    (h : Wire.RespondsTo request r) : r.responseLen ≠ 0 := by
  obtain ⟨-, -, -, hlen, -⟩ := h
  omega

theorem Wire.RespondsTo.sound {request : WireFrameHeader}
    (h : Wire.RespondsTo request r) : r.Sound :=
  fun hidle => (h.responseLen_ne hidle).elim

theorem BusInstance.Sound.cases {b : BusInstance} (h : b.Sound) :
    (∃ s, b = .software s ∧ s.Sound) ∨ ∃ r, b = .ring3Process r ∧ r.Sound := by
  cases b with
  | software s => exact .inl ⟨s, rfl, h⟩
  | ring3Process r => exact .inr ⟨r, rfl, h⟩
  | empty | usb | spi | serial | smartCard | network => exact h.elim

theorem slotStep_sound (h : (K.bus i).Sound)
    (hstep : slotStep C i K call = some (answer, K')) :
    (K'.bus i).Sound ∧ (K'.bus i).kind = (K.bus i).kind := by
  have hset : ∀ (K₁ : Kernel) {b : BusInstance},
      b.Sound ∧ b.kind = (K.bus i).kind → ((K₁.setBus i b).bus i).Sound ∧
        ((K₁.setBus i b).bus i).kind = (K.bus i).kind := by
    intro K₁ b hb
    rwa [Kernel.bus_setBus_self]
  cases call with
  | openBus init endpoints drbg =>
    obtain ⟨⟨result, bus, drbg'⟩, hopen, heq⟩ := Option.map_eq_some_iff.mp hstep
    cases heq
    apply hset
    rcases h.cases with ⟨s, hbus, hs⟩ | ⟨r, hbus, hr⟩
    · rw [hbus] at hopen ⊢
      obtain ⟨⟨result', s', rest⟩, hopened, heq⟩ :=
        Option.map_eq_some_iff.mp hopen
      cases heq
      exact ⟨hs.openBus hopened, rfl⟩
    · rw [hbus] at hopen ⊢
      cases hopen
      exact ⟨hr.openBus init endpoints, rfl⟩
  | close =>
    cases hstep
    apply hset
    rcases h.cases with ⟨s, hbus, hs⟩ | ⟨r, hbus, hr⟩
    · rw [hbus]
      exact ⟨hs.close, rfl⟩
    · rw [hbus]
      exact ⟨hr.close, rfl⟩
  | read outLen =>
    cases hstep
    apply hset
    rcases h.cases with ⟨s, hbus, hs⟩ | ⟨r, hbus, hr⟩
    · rw [hbus]
      exact ⟨hs.read outLen, rfl⟩
    · rw [hbus]
      exact ⟨hr.read outLen, rfl⟩
  | write data =>
    obtain ⟨⟨result, K₁⟩, hwrite, heq⟩ := Option.map_eq_some_iff.mp hstep
    cases heq
    rcases h.cases with ⟨s, hbus, hs⟩ | ⟨r, hbus, hr⟩
    · rw [Kernel.busWrite_software C hbus] at hwrite
      cases hwrite
      apply hset
      rw [hbus]
      exact ⟨hs.write C data, rfl⟩
    · obtain ⟨result', K₂, r', hwritten, hbus', -, hcases⟩ :=
        K.busWrite_wire_spec C hbus data
      rw [hwrite] at hwritten
      cases hwritten
      rw [hbus, hbus']
      refine ⟨?_, rfl⟩
      rcases hcases with ⟨e, -, rfl⟩ | ⟨-, -, hresponds⟩
      · exact hr
      · exact hresponds.sound
  | elsewhere K₁ =>
    cases hstep
    exact hset K₁ ⟨h, rfl⟩

def BusKind.Usable (kind : BusKind) : Prop :=
  kind = .software ∨ kind = .ring3Process

theorem BusInstance.sound_new {kind : BusKind} (h : kind.Usable) :
    (BusInstance.new kind).Sound := by
  rcases h with rfl | rfl
  · exact SoftwareBus.Sound.new
  · exact fun _ => rfl

theorem BusInstance.kind_new (kind : BusKind) : (new kind).kind = kind := by
  cases kind with
  | software | ring3Process | usb | spi | serial | smartCard | network => rfl

theorem slotRun_keeps (h : (K.bus i).Sound)
    (hrun : Run (slotStep C i) K history K') :
    (K'.bus i).Sound ∧ (K'.bus i).kind = (K.bus i).kind := by
  refine hrun.invariant
    (I := fun K' => (K'.bus i).Sound ∧ (K'.bus i).kind = (K.bus i).kind)
    ⟨h, rfl⟩ ?_
  rintro K₁ call answer K₂ ⟨hsound, hkind⟩ hstep
  obtain ⟨hsound', hsame⟩ := slotStep_sound hsound hstep
  exact ⟨hsound', hsame.trans hkind⟩

/-- What is known of every bus that calls reach from a newly constructed
one. -/
theorem slotRun_sound {K₀ : Kernel} {kind : BusKind} (hkind : kind.Usable)
    (hnew : K₀.bus i = .new kind) (hrun : Run (slotStep C i) K₀ history K) :
    (K.bus i).Sound ∧ (K.bus i).kind = kind := by
  have hstart : (K₀.bus i).Sound := by
    rw [hnew]
    exact BusInstance.sound_new hkind
  obtain ⟨hsound, hsame⟩ := slotRun_keeps hstart hrun
  refine ⟨hsound, hsame.trans ?_⟩
  rw [hnew, BusInstance.kind_new]

/-! ## Whether `poll` tells the truth -/

/-- `poll` reports a bus as readable when a read into 4096 octets delivers
something, and as writable when some nonempty write succeeds. -/
def Kernel.PollTruthful (C : Crates) (K : Kernel) (i : SlotIdx) : Prop :=
  ∃ ready, (K.bus i).poll = .ok ready ∧
    (ready.readable = true ↔
      ∃ octets, (K.busRead i 4096).1 = .ok octets ∧ 1 ≤ octets.length) ∧
    (ready.writable = true ↔
      ∃ data, data ≠ [] ∧ ∃ n K', K.busWrite C i data = some (.ok n, K'))

namespace SoftwareBus

variable {C : Crates} {s : SoftwareBus}

/-- Some nonempty write to the bus succeeds. -/
def CanWrite (C : Crates) (s : SoftwareBus) : Prop :=
  ∃ data, data ≠ [] ∧ ∃ n, (s.write C data).1 = .ok n

theorem canWrite_echo (hopen : s.openState = true) (hrole : s.role = .echo) :
    s.CanWrite C ↔ s.writeLen < swBusBuf := by
  have hwrite : ∀ data, s.write C data = s.writeEcho data := by
    intro data
    rw [write_of_open C s data hopen, hrole]
  constructor
  · rintro ⟨data, hne, n, hok⟩
    have hpos := List.length_pos_iff.mpr hne
    by_contra hfull
    rw [hwrite, writeEcho_of_gt s (by omega)] at hok
    cases hok
  · intro hroom
    have hone : ([0] : List Byte).length ≤ swBusBuf - s.writeLen :=
      Nat.sub_pos_of_lt hroom
    refine ⟨[0], List.cons_ne_nil _ _, 1, ?_⟩
    rw [hwrite]
    exact (writeEcho_of_le s hone).1

theorem canWrite_blake3 (hopen : s.openState = true) (hrole : s.role = .blake3)
    (hdigest : ∃ data digest, data ≠ [] ∧ C.blake3 data = some digest) :
    s.CanWrite C := by
  obtain ⟨data, digest, hne, hsome⟩ := hdigest
  refine ⟨data, hne, blake3OutLen, ?_⟩
  rw [write_of_open C s data hopen, hrole]
  exact (writeBlake3_of_some C s hsome).1

theorem canWrite_aesGcm {state : SoftHsmAesGcmState}
    (hopen : s.openState = true) (hrole : s.role = .aesGcm)
    (hstate : s.aesState = some state) :
    s.CanWrite C ↔ state.nonceCounter ≠ BitVec.allOnes 64 := by
  have hwrite : ∀ data, s.write C data = s.writeAesGcm C data := by
    intro data
    rw [write_of_open C s data hopen, hrole]
  constructor
  · rintro ⟨data, hne, n, hok⟩ hlast
    have hroom : ¬ (state.nonceCounter ≠ BitVec.allOnes 64 ∧
        data.length + 28 ≤ swBusBuf) := fun h => h.1 hlast
    obtain ⟨e, hrefused⟩ := writeAesGcm_of_not C s hstate hroom
    rw [hwrite, hrefused] at hok
    cases hok
  · intro hcounter
    refine ⟨[0], List.cons_ne_nil _ _, 29, ?_⟩
    rw [hwrite]
    exact (writeAesGcm_of_le C s hstate hcounter (by decide)).1

end SoftwareBus

namespace Kernel

variable {C : Crates} {K : Kernel} {i : SlotIdx}

theorem pollTruthful_software_iff {s : SoftwareBus}
    (hbus : K.bus i = .software s) (hopen : s.openState = true) :
    K.PollTruthful C i ↔ (s.writeLen < swBusBuf ↔ s.CanWrite C) := by
  have hpoll : (K.bus i).poll = .ok
      { readable := s.writeLen > s.readPos
        writable := s.writeLen < swBusBuf
        closed := false } := by
    rw [hbus]
    exact if_pos hopen
  have hread : (K.busRead i 4096).1 = .ok (s.unread.take 4096) := by
    rw [busRead, hbus]
    exact s.read_fst 4096 hopen
  have hreadable : decide (s.writeLen > s.readPos) = true ↔
      ∃ octets, (K.busRead i 4096).1 = .ok octets ∧ 1 ≤ octets.length := by
    rw [hread, decide_eq_true_iff]
    have hlen : (s.unread.take 4096).length =
        min 4096 (s.writeLen - s.readPos) := by
      rw [List.length_take, SoftwareBus.length_unread]
    constructor
    · intro hmore
      exact ⟨_, rfl, by omega⟩
    · rintro ⟨octets, ⟨⟩, hpos⟩
      omega
  have hwritable : (∃ data, data ≠ [] ∧
      ∃ n K', K.busWrite C i data = some (.ok n, K')) ↔ s.CanWrite C := by
    have hone : ∀ data,
        (∃ n K', K.busWrite C i data = some (.ok n, K')) ↔
          ∃ n, (s.write C data).1 = .ok n := by
      intro data
      rw [busWrite_software C hbus data]
      constructor
      · rintro ⟨n, K', heq⟩
        exact ⟨n, congrArg Prod.fst (Option.some.inj heq)⟩
      · rintro ⟨n, hok⟩
        exact ⟨n, _, by rw [hok]⟩
    simp only [SoftwareBus.CanWrite, hone]
  constructor
  · rintro ⟨ready, hready, -, hwrite⟩
    rw [hpoll] at hready
    cases hready
    rw [← hwritable, ← hwrite, decide_eq_true_iff]
  · intro hright
    refine ⟨_, hpoll, hreadable, ?_⟩
    rw [hwritable, ← hright, decide_eq_true_iff]

/-- A wire bus is always right: it takes a request when no frame is pending. -/
theorem pollTruthful_ring3 {r : Ring3ProcessBus}
    (hbus : K.bus i = .ring3Process r) (hopen : r.openState = true) :
    K.PollTruthful C i := by
  have hpoll : (K.bus i).poll = .ok
      { readable := r.responseLen ≠ 0
        writable := r.responseLen = 0
        closed := false } := by
    rw [hbus]
    exact if_pos hopen
  have hread : (K.busRead i 4096).1 = (r.read 4096).1 := by
    rw [busRead, hbus]
    rfl
  have hlen : ¬ 4096 < r.responseLen := Nat.not_lt.mpr r.responseLen_le
  have hisOpen : ¬ r.openState = false := by
    rw [hopen]
    decide
  refine ⟨_, hpoll, ?_, ?_⟩
  · rw [hread, Ring3ProcessBus.read, if_neg hisOpen, decide_eq_true_iff]
    constructor
    · intro hpending
      rw [if_neg hpending, if_neg hlen]
      refine ⟨_, rfl, ?_⟩
      rw [Buf.length_slice]
      exact Nat.one_le_iff_ne_zero.mpr hpending
    · rintro ⟨octets, hok, -⟩ hidle
      rw [if_pos hidle] at hok
      cases hok
  · rw [decide_eq_true_iff]
    constructor
    · intro hidle
      have haccepts : AcceptsFrame r pingRequest :=
        ⟨hopen, by decide, hidle, by decide⟩
      rcases K.busWrite_ring3_cases C hbus pingRequest with
        ⟨hrefused, -⟩ | ⟨-, build, K₁, -, -, -, hwrite⟩
      · exact (hrefused haccepts).elim
      · exact ⟨pingRequest, List.cons_ne_nil _ _, _, _, hwrite⟩
    · rintro ⟨data, -, n, K', hwrite⟩
      obtain ⟨result, K₁, r', hwritten, -, -, hcases⟩ :=
        K.busWrite_wire_spec C hbus data
      rw [hwrite] at hwritten
      cases hwritten
      rcases hcases with ⟨e, herror, -⟩ | ⟨-, hidle, -⟩
      · cases herror
      · exact hidle

end Kernel

/-- For an encryption bus, the ring is full exactly when the counter is
exhausted. -/
def BusInstance.FullIffExhausted : BusInstance → Prop
  | .software s =>
    s.role = .aesGcm → ∀ state, s.aesState = some state →
      (s.writeLen = swBusBuf ↔ state.nonceCounter = BitVec.allOnes 64)
  | _ => True

/-- In every state that calls on the bus of a slot reach from a newly
constructed bus, `poll` tells the truth about an open bus, except for an
encryption bus whose ring is full while it could encrypt, or has room while its
counter is exhausted. -/
theorem pollTruthful_iff (C : Crates)
    (hdigest : ∃ data digest, data ≠ [] ∧ C.blake3 data = some digest)
    (i : SlotIdx) {K₀ K : Kernel} {kind : BusKind} (hkind : kind.Usable)
    (hnew : K₀.bus i = .new kind) {history : List (SlotCall × BusAnswer)}
    (hrun : Run (slotStep C i) K₀ history K) (hopen : (K.bus i).IsOpen) :
    K.PollTruthful C i ↔ (K.bus i).FullIffExhausted := by
  rcases (slotRun_sound hkind hnew hrun).1.cases with
    ⟨s, hbus, hsound⟩ | ⟨r, hbus, -⟩
  · rw [hbus] at hopen
    have hlen := s.writeLen_le
    obtain ⟨hdigestLen, hkey⟩ := hsound hopen
    rw [Kernel.pollTruthful_software_iff hbus hopen, hbus]
    change _ ↔ (s.role = .aesGcm → _)
    cases hrole : s.role with
    | echo =>
      rw [SoftwareBus.canWrite_echo hopen hrole]
      exact iff_of_true Iff.rfl (fun h => nomatch h)
    | blake3 =>
      have hroom : s.writeLen < swBusBuf :=
        (hdigestLen hrole).trans_lt (by decide)
      have hcan := SoftwareBus.canWrite_blake3 hopen hrole hdigest
      exact iff_of_true (iff_of_true hroom hcan) (fun h => nomatch h)
    | aesGcm =>
      obtain ⟨state, hstate⟩ := hkey hrole
      have hfull : s.writeLen < swBusBuf ↔ ¬ s.writeLen = swBusBuf :=
        ⟨fun h => h.ne, hlen.lt_of_ne⟩
      rw [SoftwareBus.canWrite_aesGcm hopen hrole hstate, hfull, ne_eq,
        not_iff_not]
      constructor
      · rintro htruth - state' hstate'
        obtain rfl := Option.some.inj (hstate.symm.trans hstate')
        exact htruth
      · exact fun hright => hright rfl state hstate
  · rw [hbus] at hopen
    have htruth := Kernel.pollTruthful_ring3 (C := C) hbus hopen
    rw [hbus]
    exact iff_of_true htruth trivial

def newSoftwareKernel : Kernel :=
  (Kernel.boot [] Buf.zero Buf.zero 1 2).setBus 0 (.new .software)

def Crates.hashing : Crates := { Crates.inert with blake3 := fun _ => some Buf.zero }

/-- An echo bus that was just opened tells the truth. -/
theorem pollTruthful_opened_echo :
    ∃ history K, Run (slotStep Crates.hashing 0) newSoftwareKernel history K ∧
      history.length = 1 ∧ K.PollTruthful Crates.hashing 0 := by
  have hrun : Run (slotStep Crates.hashing 0) newSoftwareKernel _ _ :=
    Run.next (a := .openBus [] [] none) Run.start rfl
  refine ⟨_, _, hrun, rfl, ?_⟩
  apply (pollTruthful_iff Crates.hashing ⟨[0], Buf.zero, by decide, rfl⟩ 0
    (.inl rfl) rfl hrun rfl).mpr
  intro haes
  cases haes

/-- An encryption bus that holds a record of 64 octets is reported as not
writable, and takes the next write. -/
theorem poll_denies_encryption :
    ∃ history K, Run (slotStep Crates.inert 0) newSoftwareKernel history K ∧
      (∃ ready, (K.bus 0).poll = .ok ready ∧ ready.writable = false) ∧
      ∃ n K', K.busWrite Crates.inert 0 [0] = some (.ok n, K') := by
  have hrun : Run (slotStep Crates.inert 0) newSoftwareKernel _ _ :=
    Run.next (a := .write (List.replicate 36 0))
      (Run.next (a := .openBus [2] [] (some [.generated fun _ => 7]))
        Run.start rfl) rfl
  exact ⟨_, _, hrun, ⟨_, rfl, rfl⟩, 29, _, rfl⟩

end IsoLightK0
