import IsoLightK0.Registry.Sessions

/-!
# Closing a bus and opening it again

A session should not see the one before it: nothing can be read before the
first write, and every later answer is the one of a newly constructed bus that
was opened in the same way.  A software bus starts empty.  A wire bus keeps its
pending frame over `close` and `open`.
-/

namespace IsoLightK0

open Bytes Runs

variable {s : SoftwareBus} {C : Crates} {K K' : Kernel} {i : SlotIdx}
  {r : Ring3ProcessBus}

theorem SoftwareBus.close_of_closed (h : s.openState = false) :
    s.close = (.error .notOpen, s) := by
  simp [SoftwareBus.close, h]

theorem SoftwareBus.read_of_closed (h : s.openState = false) (outLen : ℕ) :
    s.read outLen = (.error .notOpen, s) := by
  simp [SoftwareBus.read, h]

namespace Ring3ProcessBus

variable {r : Ring3ProcessBus} {init : List Byte}
  {endpoints : List EndpointId}

theorem close_of_closed (h : r.openState = false) :
    r.close = (.error .notOpen, r) := by
  simp [close, h]

theorem read_of_closed (h : r.openState = false) (outLen : ℕ) :
    r.read outLen = (.error .notOpen, r) := by
  simp [read, h]

theorem close_ok (hok : r.close.1 = .ok ()) :
    r.close.2.openState = false ∧ r.close.2.responseLen = r.responseLen := by
  unfold close at hok ⊢
  split at hok
  · rename_i hopen
    rw [if_pos hopen]
    exact ⟨rfl, rfl⟩
  · cases hok

/-- Opening the bus is refused and changes nothing, or it binds an endpoint that
does not depend on what the bus was, except that it was closed. -/
theorem openBus_cases (r : Ring3ProcessBus) (init : List Byte)
    (endpoints : List EndpointId) :
    (∃ e, r.openBus init endpoints = (.error e, r)) ∨
      r.openState = false ∧ ∃ endpoint, ∀ r' : Ring3ProcessBus,
        r'.openState = false → r'.openBus init endpoints =
          (.ok (), { r' with endpoint := endpoint, openState := true }) := by
  fun_cases openBus r init endpoints
  case case5 hopen lo hi reserved endpoint hreserved hvalid hexists =>
    refine .inr ⟨Bool.eq_false_iff.mpr hopen, endpoint, fun r' hclosed => ?_⟩
    have hisClosed : ¬ r'.openState = true := Bool.eq_false_iff.mp hclosed
    rw [openBus, if_neg hisClosed]
    dsimp only
    rw [if_neg hreserved, if_neg hvalid, if_neg hexists]
  all_goals exact .inl ⟨_, rfl⟩

end Ring3ProcessBus

namespace BusInstance

variable {b b' : BusInstance}

theorem close_of_closed (h : b.Sound) (hclosed : ¬ b.IsOpen) :
    b.close.2 = b := by
  rcases h.cases with ⟨s, rfl, -⟩ | ⟨r, rfl, -⟩
  · rw [close, SoftwareBus.close_of_closed (Bool.eq_false_iff.mpr hclosed)]
  · rw [close, Ring3ProcessBus.close_of_closed (Bool.eq_false_iff.mpr hclosed)]

theorem read_of_closed (h : b.Sound) (hclosed : ¬ b.IsOpen) (outLen : ℕ) :
    (b.read outLen).2 = b := by
  rcases h.cases with ⟨s, rfl, -⟩ | ⟨r, rfl, -⟩
  · rw [read, SoftwareBus.read_of_closed (Bool.eq_false_iff.mpr hclosed)]
  · rw [read, Ring3ProcessBus.read_of_closed (Bool.eq_false_iff.mpr hclosed)]

theorem openBus_ring3 (r : Ring3ProcessBus) (init : List Byte)
    (endpoints : List EndpointId) (drbg : CapDrbg) :
    (ring3Process r).openBus init endpoints drbg =
      some ((r.openBus init endpoints).1,
        ring3Process (r.openBus init endpoints).2, drbg) := rfl

theorem openBus_refused {init : List Byte} {endpoints : List EndpointId}
    {drbg drbg' : CapDrbg} {result : Except BusError Unit} (h : b.Sound)
    (hopen : b.openBus init endpoints drbg = some (result, b', drbg'))
    (hrefused : result ≠ .ok ()) : b' = b := by
  rcases h.cases with ⟨s, rfl, -⟩ | ⟨r, rfl, -⟩
  · obtain ⟨⟨result', s', drbg''⟩, hs, heq⟩ := Option.map_eq_some_iff.mp hopen
    cases heq
    rcases SoftwareBus.openBus_cases hs with ⟨e, -, rfl⟩ | ⟨hok, -⟩
    · rfl
    · exact (hrefused hok).elim
  · rw [openBus_ring3] at hopen
    rcases r.openBus_cases init endpoints with ⟨e, heq⟩ | ⟨hr, endpoint, heq⟩
    · rw [heq] at hopen
      cases hopen
      rfl
    · rw [heq r hr] at hopen
      cases hopen
      exact (hrefused rfl).elim

end BusInstance

theorem Kernel.busWrite_of_closed {data : List Byte}
    {result : Except BusError ℕ} (h : (K.bus i).Sound)
    (hclosed : ¬ (K.bus i).IsOpen)
    (hwrite : K.busWrite C i data = some (result, K')) :
    K'.bus i = K.bus i := by
  rcases h.cases with ⟨s, hbus, -⟩ | ⟨r, hbus, -⟩
  · rw [hbus] at hclosed
    rw [Kernel.busWrite_software C hbus, SoftwareBus.write_of_closed C s data
      (Bool.eq_false_iff.mpr hclosed)] at hwrite
    cases hwrite
    rw [Kernel.bus_setBus_self, hbus]
  · rw [hbus] at hclosed
    rcases K.busWrite_ring3_cases C hbus data with
      ⟨-, e, hrefused⟩ | ⟨haccepts, -⟩
    · rw [hwrite] at hrefused
      cases hrefused
      rfl
    · exact (hclosed haccepts.1).elim

def SlotCall.Opens (event : SlotCall × BusAnswer) : Prop :=
  ∃ init endpoints drbg, event = (.openBus init endpoints drbg, .done (.ok ()))

theorem slotStep_of_closed {call : SlotCall} {answer : BusAnswer}
    (h : (K.bus i).Sound) (hclosed : ¬ (K.bus i).IsOpen)
    (hstep : slotStep C i K call = some (answer, K'))
    (hnot : ¬ SlotCall.Opens (call, answer)) : K'.bus i = K.bus i := by
  cases call with
  | openBus init endpoints drbg =>
    obtain ⟨⟨result, bus, drbg'⟩, hopen, heq⟩ := Option.map_eq_some_iff.mp hstep
    cases heq
    rw [Kernel.bus_setBus_self]
    apply BusInstance.openBus_refused h hopen
    rintro rfl
    exact hnot ⟨init, endpoints, drbg, rfl⟩
  | close =>
    cases hstep
    rw [Kernel.bus_setBus_self, BusInstance.close_of_closed h hclosed]
  | read outLen =>
    cases hstep
    rw [Kernel.busRead, Kernel.bus_setBus_self,
      BusInstance.read_of_closed h hclosed]
  | write data =>
    obtain ⟨⟨result, K₁⟩, hwrite, heq⟩ := Option.map_eq_some_iff.mp hstep
    cases heq
    exact Kernel.busWrite_of_closed h hclosed hwrite
  | elsewhere K₁ =>
    cases hstep
    rw [Kernel.bus_setBus_self]

theorem slotRun_of_closed {K₁ K₂ : Kernel} (h : (K₁.bus i).Sound)
    (hclosed : ¬ (K₁.bus i).IsOpen) {between : List (SlotCall × BusAnswer)}
    (hrun : Run (slotStep C i) K₁ between K₂)
    (hnot : ∀ event ∈ between, ¬ SlotCall.Opens event) :
    K₂.bus i = K₁.bus i := by
  refine hrun.history_invariant
    (I := fun between K₂ => (∀ event ∈ between, ¬ SlotCall.Opens event) →
      K₂.bus i = K₁.bus i) (fun _ => rfl) ?_ hnot
  intro between K call answer K' _ ih hstep hnone
  have hsame := ih fun event hmem => hnone event (List.mem_cons_of_mem _ hmem)
  rw [← hsame] at h hclosed
  rw [slotStep_of_closed h hclosed hstep (hnone _ List.mem_cons_self), hsame]

/-! ## The next session -/

/-- A session on the bus of a slot does not depend on what was before it:
nothing is delivered before the first write, every run of calls is also one on
the new bus `fresh`, with the same answers, and the first write is accepted when
it is on `fresh`. -/
structure FreshSession (C : Crates) (K : Kernel) (i : SlotIdx)
    (fresh : BusInstance) : Prop where
  nothing_waits : ∀ outLen octets,
    (K.busRead i outLen).1 = .ok octets → octets = []
  answers : ∀ history K', Run (slotStep C i) K history K' →
    ∃ K'', Run (slotStep C i) (K.setBus i fresh) history K''
  first_write : ∀ data,
    (∃ n K', K.busWrite C i data = some (.ok n, K')) ↔
      ∃ n K', (K.setBus i fresh).busWrite C i data = some (.ok n, K')

theorem FreshSession.of_bus_eq {fresh : BusInstance} (hbus : K.bus i = fresh)
    (hempty : ∀ outLen octets, (fresh.read outLen).1 = .ok octets → octets = []) :
    FreshSession C K i fresh := by
  have hsame : K.setBus i fresh = K := by
    rw [← hbus, Kernel.setBus_bus]
  refine ⟨?_, ?_, ?_⟩
  · intro outLen octets hread
    rw [Kernel.busRead, hbus] at hread
    exact hempty outLen octets hread
  · intro history K' hrun
    exact ⟨K', hsame.symm ▸ hrun⟩
  · intro data
    rw [hsame]

theorem SoftwareBus.read_opened {role : SoftHsmRole}
    {aesState : Option SoftHsmAesGcmState} {outLen : ℕ} {octets : List Byte}
    (h : ((opened role aesState).read outLen).1 = .ok octets) :
    octets = [] := by
  have hread := (opened role aesState).read_fst outLen rfl
  rw [h] at hread
  have hempty : (opened role aesState).unread = [] := rfl
  rw [hempty, List.take_nil] at hread
  exact Except.ok.inj hread

theorem Ring3ProcessBus.read_of_idle {outLen : ℕ} {octets : List Byte}
    (hidle : r.responseLen = 0) (h : (r.read outLen).1 = .ok octets) :
    octets = [] := by
  unfold Ring3ProcessBus.read at h
  split at h
  · cases h
  · cases h

/-- The octets of a pending frame are delivered to whoever reads first. -/
theorem Ring3ProcessBus.read_of_pending (hopen : r.openState = true)
    (hpending : r.responseLen ≠ 0) :
    (r.read wireFrameMax).1 =
      .ok (r.pendingResponse.slice 0 r.responseLen) := by
  have hisOpen : ¬ r.openState = false := by
    rw [hopen]
    decide
  rw [read, if_neg hisOpen, if_neg hpending,
    if_neg (Nat.not_lt.mpr r.responseLen_le)]

theorem freshSession_software (hbus : K.bus i = .software s) {init : List Byte}
    {endpoints : List EndpointId} {drbg : CapDrbg}
    (hopen : slotStep C i K (.openBus init endpoints drbg) =
      some (.done (.ok ()), K')) :
    ∃ fresh drbg', (BusInstance.new .software).openBus init endpoints drbg =
        some (.ok (), fresh, drbg') ∧ FreshSession C K' i fresh := by
  obtain ⟨⟨result, bus, drbg'⟩, hstep, heq⟩ := Option.map_eq_some_iff.mp hopen
  cases heq
  rw [hbus] at hstep
  obtain ⟨⟨result', s', drbg''⟩, hs, heq⟩ := Option.map_eq_some_iff.mp hstep
  cases heq
  rcases SoftwareBus.openBus_cases hs with
    ⟨e, hrefused, -⟩ | ⟨-, -, hfresh, role, aesState, rfl, -⟩
  · cases hrefused
  · refine ⟨_, drbg', Option.map_eq_some_iff.mpr ⟨_, hfresh, rfl⟩, ?_⟩
    apply FreshSession.of_bus_eq (Kernel.bus_setBus_self K i _)
    intro outLen octets hread
    exact SoftwareBus.read_opened hread

theorem freshSession_ring3_iff (hbus : K.bus i = .ring3Process r)
    (hsound : r.Sound) {init : List Byte} {endpoints : List EndpointId}
    {drbg : CapDrbg}
    (hopen : slotStep C i K (.openBus init endpoints drbg) =
      some (.done (.ok ()), K')) :
    (∃ fresh drbg',
        (BusInstance.new .ring3Process).openBus init endpoints drbg =
          some (.ok (), fresh, drbg') ∧ FreshSession C K' i fresh) ↔
      r.responseLen = 0 := by
  obtain ⟨⟨result, bus, drbg'⟩, hstep, heq⟩ := Option.map_eq_some_iff.mp hopen
  cases heq
  rw [hbus, BusInstance.openBus_ring3] at hstep
  rcases r.openBus_cases init endpoints with ⟨e, hrefused⟩ | ⟨hr, endpoint, hbind⟩
  · rw [hrefused] at hstep
    cases hstep
  rw [hbind r hr] at hstep
  cases hstep
  have hfresh : (BusInstance.new .ring3Process).openBus init endpoints drbg =
      some (.ok (), .ring3Process { Ring3ProcessBus.new with
        endpoint := endpoint, openState := true }, drbg) := by
    rw [BusInstance.new, BusInstance.openBus_ring3, hbind _ rfl]
  constructor
  · rintro ⟨fresh, drbg', -, hseparated⟩
    by_contra hpending
    have hread := hseparated.nothing_waits wireFrameMax
      (r.pendingResponse.slice 0 r.responseLen)
    rw [Kernel.busRead, Kernel.bus_setBus_self] at hread
    have hempty := hread (Ring3ProcessBus.read_of_pending rfl hpending)
    have hlen := congrArg List.length hempty
    rw [Buf.length_slice] at hlen
    exact hpending hlen
  · intro hidle
    refine ⟨_, _, hfresh, FreshSession.of_bus_eq ?_ ?_⟩
    · rw [Kernel.bus_setBus_self]
      congr 1
      exact Ring3ProcessBus.ext rfl rfl (hsound hidle) hidle
    · intro outLen octets hread
      exact Ring3ProcessBus.read_of_idle rfl hread

/-- After `close` and the next successful `open`, with any calls in between,
the session is separated from what was before unless a frame was pending on a
wire bus when it was closed. -/
theorem freshSession_iff (C : Crates) (i : SlotIdx) {K₀ K K₁ K₂ K₃ : Kernel}
    {kind : BusKind} (hkind : kind.Usable) (hnew : K₀.bus i = .new kind)
    {history between : List (SlotCall × BusAnswer)} {init : List Byte}
    {endpoints : List EndpointId} {drbg : CapDrbg}
    (hrun : Run (slotStep C i) K₀ history K)
    (hclose : slotStep C i K .close = some (.done (.ok ()), K₁))
    (hbetween : Run (slotStep C i) K₁ between K₂)
    (hnot : ∀ event ∈ between, ¬ SlotCall.Opens event)
    (hopen : slotStep C i K₂ (.openBus init endpoints drbg) =
      some (.done (.ok ()), K₃)) :
    (∃ fresh drbg', (BusInstance.new kind).openBus init endpoints drbg =
        some (.ok (), fresh, drbg') ∧ FreshSession C K₃ i fresh) ↔
      ∀ r, K.bus i = .ring3Process r → r.responseLen = 0 := by
  obtain ⟨hsound, hsame⟩ := slotRun_sound hkind hnew hrun
  obtain ⟨hsound₁, hkind₁⟩ := slotStep_sound hsound hclose
  obtain ⟨hsound₂, hlater⟩ := slotRun_keeps hsound₁ hbetween
  have hkind₂ := hlater.trans hkind₁
  obtain ⟨hok, rfl⟩ : (K.bus i).close.1 = .ok () ∧
      K.setBus i (K.bus i).close.2 = K₁ := by
    simpa [slotStep] using hclose
  rcases hsound.cases with ⟨s, hbus, -⟩ | ⟨r, hbus, hr⟩
  · rw [hbus] at hsame hkind₂
    obtain rfl : .software = kind := hsame
    rcases hsound₂.cases with ⟨s₂, hbus₂, -⟩ | ⟨r₂, hbus₂, -⟩
    · apply iff_of_true (freshSession_software hbus₂ hopen)
      intro r hring3
      rw [hbus] at hring3
      cases hring3
    · rw [hbus₂] at hkind₂
      cases hkind₂
  · rw [hbus] at hsame hok
    obtain rfl : .ring3Process = kind := hsame
    obtain ⟨hclosed, hbus₁⟩ := Ring3ProcessBus.close_ok hok
    have hafter : (K.setBus i (K.bus i).close.2).bus i =
        .ring3Process r.close.2 := by
      rw [Kernel.bus_setBus_self, hbus]
      rfl
    have hnotOpen : ¬ ((K.setBus i (K.bus i).close.2).bus i).IsOpen := by
      rw [hafter]
      exact Bool.eq_false_iff.mp hclosed
    have hbus₂ := (slotRun_of_closed hsound₁ hnotOpen hbetween hnot).trans
      hafter
    rw [freshSession_ring3_iff hbus₂ hr.close hopen, hbus₁]
    constructor
    · intro hidle r' hring3
      rw [hbus] at hring3
      cases hring3
      exact hidle
    · exact fun hidle => hidle r hbus

def newWireKernel : Kernel :=
  (Kernel.boot [] Buf.zero Buf.zero 1 2).setBus 0 (.new .ring3Process)

/-- The answer to a `Ping` is read before the bus is closed. -/
theorem freshSession_after_read :
    ∃ history K fresh drbg',
      Run (slotStep Crates.inert 0) newWireKernel history K ∧
      history.map Prod.fst =
        [.openBus [3, 0] [3] none, .close, .read 4096, .write pingRequest,
          .openBus [3, 0] [3] none] ∧
      (BusInstance.new .ring3Process).openBus [3, 0] [3] none =
        some (.ok (), fresh, drbg') ∧ FreshSession Crates.inert K 0 fresh := by
  have hrun : Run (slotStep Crates.inert 0) newWireKernel _ _ :=
    Run.next (a := .read 4096)
      (Run.next (a := .write pingRequest)
        (Run.next (a := .openBus [3, 0] [3] none) Run.start rfl) rfl) rfl
  have hclosed := Run.next (a := .close) hrun rfl
  have hreopened := Run.next (a := .openBus [3, 0] [3] none) hclosed rfl
  have hfresh := (freshSession_iff Crates.inert 0 (.inr rfl) rfl hrun rfl
    (Run.start : Run (slotStep Crates.inert 0) _ [] _)
    (fun _ hmem => (List.not_mem_nil hmem).elim)
    (show slotStep Crates.inert 0 _ (.openBus [3, 0] [3] none) =
      some (.done (.ok ()), _) from rfl)).mpr (by
        rintro r ⟨⟩
        rfl)
  obtain ⟨fresh, drbg', hopen, hseparated⟩ := hfresh
  exact ⟨_, _, fresh, drbg', hreopened, rfl, hopen, hseparated⟩

/-- A `Ping`, `close` and `open`: the answer to the request of the first session
is read in the second, and the first request of the second is refused. -/
theorem stale_frame_after_reopen :
    ∃ history K octets e,
      Run (slotStep Crates.inert 0) newWireKernel history K ∧
      history.map Prod.fst =
        [.openBus [3, 0] [3] none, .close, .write pingRequest,
          .openBus [3, 0] [3] none] ∧
      (K.busRead 0 4096).1 = .ok octets ∧ octets.length = 16 ∧
      K.busWrite Crates.inert 0 pingRequest = some (.error e, K) := by
  have hrun : Run (slotStep Crates.inert 0) newWireKernel _ _ :=
    Run.next (a := .openBus [3, 0] [3] none)
      (Run.next (a := .close)
        (Run.next (a := .write pingRequest)
          (Run.next (a := .openBus [3, 0] [3] none) Run.start rfl) rfl)
        rfl) rfl
  exact ⟨_, _, _, _, hrun, rfl, rfl, rfl, rfl⟩

end IsoLightK0
