import IsoLightK0.Syscall.AirGap

/-!
# User memory stays in the user window

Which user memory do the handlers touch?  The trace of a call is followed
through the program.  While ranges are being checked nothing has been touched
yet, and from then on every copy lies in a range that passed its check.  One
handler departs from this order: `handle_enumerate` reads its capability
before it checks the output range.
-/

namespace IsoLightK0

open Bytes Triples Handler

/-- All addresses of the range, and its end, lie in the user window. -/
def InRange (ptr : BitVec 64) (len : ℕ) : Prop :=
  0x1000 ≤ ptr.toNat ∧ ptr.toNat + len < 2 ^ 47

variable {ptr : BitVec 64} {len : ℕ}

theorem InRange.mono {len' : ℕ} (h : InRange ptr len) (hle : len' ≤ len) :
    InRange ptr len' :=
  ⟨h.1, lt_of_le_of_lt (Nat.add_le_add_left hle _) h.2⟩

theorem InRange.toNat_add {k : ℕ} (h : InRange ptr len) (hk : k ≤ len) :
    (ptr + BitVec.ofNat 64 k).toNat = ptr.toNat + k := by
  have hend := h.2
  rw [BitVec.toNat_add, BitVec.toNat_ofNat, Nat.mod_eq_of_lt (a := k),
    Nat.mod_eq_of_lt]
  · omega
  · omega

theorem InRange.advance {k : ℕ} (h : InRange ptr len) (hk : k ≤ len) :
    InRange (ptr + BitVec.ofNat 64 k) (len - k) := by
  have hadd := h.toNat_add hk
  have hlow := h.1
  have hend := h.2
  constructor
  · omega
  · omega

namespace UserEvent

/-- The octets touched are the ones between `ptr` and `ptr + len` without
wrap-around, and `is_user_address` holds of each. -/
def InWindow : UserEvent → Prop
  | rejected _ _ => True
  | read ptr len | write ptr len =>
    ptr.toNat + len < 2 ^ 64 ∧
      ∀ k < len, isUserAddress (ptr + BitVec.ofNat 64 k) = true

def IsCheckedCopy : UserEvent → Prop
  | rejected _ _ => False
  | read ptr len | write ptr len => InRange ptr len

theorem inWindow_of_inRange {ptr : BitVec 64} {len : ℕ} (h : InRange ptr len) :
    ptr.toNat + len < 2 ^ 64 ∧
      ∀ k < len, isUserAddress (ptr + BitVec.ofNat 64 k) = true := by
  have hend := h.2
  refine ⟨by omega, ?_⟩
  intro k hk
  have hlow := h.1
  rw [isUserAddress_iff, h.toNat_add (le_of_lt hk)]
  constructor
  · omega
  · omega

theorem IsCheckedCopy.inWindow {e : UserEvent} (h : e.IsCheckedCopy) :
    e.InWindow := by
  cases e with
  | rejected ptr len => exact h.elim
  | read ptr len => exact inWindow_of_inRange h
  | write ptr len => exact inWindow_of_inRange h

end UserEvent

def CheckedCopies (trace : List UserEvent) : Prop :=
  ∀ e ∈ trace, e.IsCheckedCopy

theorem CheckedCopies.cons {trace : List UserEvent} {e : UserEvent}
    (h : CheckedCopies trace) (he : e.IsCheckedCopy) :
    CheckedCopies (e :: trace) := by
  intro e' he'
  rcases List.mem_cons.mp he' with rfl | hmem
  · exact he
  · exact h e' hmem

/-- The trace of a finished call: every copy in the window, and if a range was
rejected then nothing was touched but what `early` lists. -/
def Orderly (early trace : List UserEvent) : Prop :=
  (∀ e ∈ trace, e.InWindow) ∧
    ∀ ptr len, .rejected ptr len ∈ trace →
      trace = [.rejected ptr len] ∨ trace = .rejected ptr len :: early

theorem CheckedCopies.orderly {trace : List UserEvent}
    (h : CheckedCopies trace) (early : List UserEvent) :
    Orderly early trace := by
  constructor
  · intro e he
    exact (h e he).inWindow
  · intro ptr len hmem
    exact (h _ hmem).elim

theorem orderly_rejected (early : List UserEvent) (ptr len : BitVec 64) :
    Orderly early [.rejected ptr len] := by
  constructor
  · intro e he
    rw [List.mem_singleton.mp he]
    exact trivial
  · intro ptr' len' hmem
    cases List.mem_singleton.mp hmem
    exact .inl rfl

theorem orderly_rejected_early {early : List UserEvent}
    (h : CheckedCopies early) (ptr len : BitVec 64) :
    Orderly early (.rejected ptr len :: early) := by
  constructor
  · intro e he
    rcases List.mem_cons.mp he with rfl | hmem
    · exact trivial
    · exact (h e hmem).inWindow
  · intro ptr' len' hmem
    rcases List.mem_cons.mp hmem with heq | hmem
    · cases heq
      exact .inr rfl
    · exact (h _ hmem).elim

/-! ## Rules for the steps of a handler -/

/-- Started with a trace in `T`, the program returns with a trace in `Q` or
ends the call with a trace in `F`. -/
def TraceSpec {α : Type} (T : List UserEvent → Prop) (x : Handler α)
    (Q F : List UserEvent → Prop) : Prop :=
  Triple (fun m => T m.trace) x (fun _ m => Q m.trace) (fun _ m => F m.trace)

section Rules

variable {α β : Type} {T Q F : List UserEvent → Prop}

theorem trace_pure (a : α) (hQ : ∀ t, T t → Q t) :
    TraceSpec T (pure a : Handler α) Q F :=
  Triple.pure a fun m => hQ m.trace

theorem trace_fail (e : SyscallError) (hF : ∀ t, T t → F t) :
    TraceSpec T (fail e : Handler α) Q F :=
  Triple.throw _ fun m => hF m.trace

variable {M : List UserEvent → Prop} {f : Unit → Handler α} {ptr : BitVec 64}

theorem trace_bind {y : Handler β} {f : β → Handler α} (hy : TraceSpec T y M F)
    (hf : ∀ b, TraceSpec M (f b) Q F) : TraceSpec T (y >>= f) Q F :=
  Triple.bind hy hf

theorem trace_ite {c : Prop} [Decidable c] {x y : Handler α}
    (hx : c → TraceSpec T x Q F) (hy : ¬ c → TraceSpec T y Q F) :
    TraceSpec T (if c then x else y) Q F :=
  Triple.ite hx hy

theorem trace_failIf_bind {c : Prop} [Decidable c] {e : SyscallError}
    (hF : ∀ t, T t → F t) (hrest : ¬ c → TraceSpec T (f ()) Q F) :
    TraceSpec T (failIf c e >>= f) Q F :=
  Triple.exitIf_bind (fun _ m => hF m.trace) hrest

theorem trace_guardRange_bind {len : BitVec 64} {e : SyscallError}
    (hreject : ∀ t, T t → F (.rejected ptr len :: t))
    (hrest : InRange ptr len.toNat → TraceSpec T (f ()) Q F) :
    TraceSpec T (guardRange ptr len e >>= f) Q F := by
  intro m hm
  rw [Prog.eval_bind]
  cases hok : userRangeOk ptr len with
  | true =>
    rw [eval_guardRange_of_ok m e hok]
    exact hrest ((userRangeOk_iff ptr len).mp hok) m hm
  | false =>
    rw [eval_guardRange_of_rejected m e hok]
    refine ⟨fun _ _ h => (nomatch h), ?_⟩
    rintro _ _ ⟨⟩
    exact hreject m.trace hm

theorem trace_copyIn_bind {len : ℕ} {f : List Byte → Handler α}
    (hcopy : ∀ t, T t → M (.read ptr len :: t))
    (hrest : ∀ bytes, TraceSpec M (f bytes) Q F) :
    TraceSpec T (copyIn ptr len >>= f) Q F := by
  intro m hm
  rw [Prog.eval_bind, eval_copyIn]
  exact hrest _ _ (hcopy m.trace hm)

theorem trace_copyOut_bind {bytes : List Byte}
    (hcopy : ∀ t, T t → M (.write ptr bytes.length :: t))
    (hrest : TraceSpec M (f ()) Q F) :
    TraceSpec T (copyOut ptr bytes >>= f) Q F := by
  intro m hm
  rw [Prog.eval_bind, eval_copyOut]
  exact hrest _ (hcopy m.trace hm)

theorem trace_viewKernel_bind {g : Kernel → β} {f : β → Handler α}
    (hrest : ∀ K, TraceSpec T (f (g K)) Q F) :
    TraceSpec T (viewKernel g >>= f) Q F := by
  intro m hm
  rw [Prog.eval_bind, eval_viewKernel]
  exact hrest m.kernel m hm

theorem trace_updateKernel_bind {g : Kernel → Kernel}
    (hrest : TraceSpec T (f ()) Q F) :
    TraceSpec T (updateKernel g >>= f) Q F := by
  intro m hm
  rw [Prog.eval_bind, eval_updateKernel]
  exact hrest _ hm

theorem trace_callKernel_bind {g : Kernel → Option (β × Kernel)}
    {f : β → Handler α} (hF : ∀ t, T t → F t)
    (hrest : ∀ K b K', g K = some (b, K') → TraceSpec T (f b) Q F) :
    TraceSpec T (callKernel g >>= f) Q F := by
  intro m hm
  rw [Prog.eval_bind, eval_callKernel]
  cases hcall : g m.kernel with
  | none =>
    refine ⟨fun _ _ h => (nomatch h), ?_⟩
    rintro _ _ ⟨⟩
    exact hF m.trace hm
  | some result => exact hrest m.kernel result.1 result.2 hcall _ hm

theorem trace_denyIf_bind {c : Prop} [Decidable c]
    {slotIdx result busKind : Byte} (hF : ∀ t, T t → F t)
    (hrest : TraceSpec T (f ()) Q F) :
    TraceSpec T (denyIf c slotIdx result busKind >>= f) Q F := by
  refine trace_bind (M := T) ?_ fun _ => hrest
  refine trace_ite (fun _ => ?_) fun _ => trace_pure _ fun _ h => h
  intro m hm
  refine ⟨fun _ _ h => (nomatch h), ?_⟩
  rintro _ _ ⟨⟩
  exact hF m.trace hm

end Rules

section Phases

variable {α : Type} {Q F : List UserEvent → Prop} {early : List UserEvent}

theorem checkedCopies_nil : CheckedCopies [] := by
  intro e he
  cases he

theorem orderly_nil : ∀ t, t = [] → Orderly early t := by
  rintro _ rfl
  exact checkedCopies_nil.orderly early

variable {ptr : BitVec 64}

theorem orderly_reject {len : BitVec 64} :
    ∀ t, t = [] → Orderly early (.rejected ptr len :: t) := by
  rintro _ rfl
  exact orderly_rejected early ptr len

theorem orderly_copies : ∀ t, CheckedCopies t → Orderly early t :=
  fun _ h => h.orderly early

theorem trace_touch_after {done : List UserEvent} {x : Handler α}
    (hdone : CheckedCopies done) (h : TraceSpec CheckedCopies x Q F) :
    TraceSpec (· = done) x Q F := by
  refine Triple.weaken h ?_ fun _ _ h => h
  rintro m (hm : m.trace = done)
  rw [hm]
  exact hdone

theorem trace_touch {x : Handler α} (h : TraceSpec CheckedCopies x Q F) :
    TraceSpec (· = []) x Q F :=
  trace_touch_after checkedCopies_nil h

theorem trace_read {len : ℕ} {f : List Byte → Handler α}
    (hrange : InRange ptr len)
    (hrest : ∀ bytes, TraceSpec CheckedCopies (f bytes) Q F) :
    TraceSpec CheckedCopies (copyIn ptr len >>= f) Q F :=
  trace_copyIn_bind (fun _ h => h.cons hrange) hrest

theorem trace_write {bytes : List Byte} {f : Unit → Handler α}
    (hrange : InRange ptr bytes.length)
    (hrest : TraceSpec CheckedCopies (f ()) Q F) :
    TraceSpec CheckedCopies (copyOut ptr bytes >>= f) Q F :=
  trace_copyOut_bind (fun _ h => h.cons hrange) hrest

theorem trace_copyCapability_bind {f : HsmCapability → Handler α}
    (hrange : InRange ptr 16)
    (hrest : ∀ cap, TraceSpec CheckedCopies (f cap) Q F) :
    TraceSpec CheckedCopies (copyCapability ptr >>= f) Q F := by
  unfold copyCapability
  rw [bind_assoc]
  refine trace_read hrange fun bytes => ?_
  rw [pure_bind]
  exact hrest _

end Phases

/-! ## The registry handlers -/

section Registry

variable (tlsExternal : Bool) (C : Crates) (destroy : BusInstance.Destructor)
  (ctx : SyscallContext) (early : List UserEvent)

theorem attachBusKind_trace (raw : BitVec 64) :
    TraceSpec (· = []) (attachBusKind tlsExternal raw) (· = [])
      (Orderly early) := by
  unfold attachBusKind
  refine trace_ite (fun _ => trace_pure _ fun _ h => h) fun _ => ?_
  refine trace_ite (fun _ => trace_pure _ fun _ h => h) fun _ => ?_
  refine trace_ite (fun _ => ?_) fun _ => trace_fail _ orderly_nil
  refine trace_viewKernel_bind fun K => ?_
  refine trace_denyIf_bind orderly_nil ?_
  exact trace_pure _ fun _ h => h

theorem handleDetach_orderly :
    TraceSpec (· = []) (handleDetach destroy ctx) (Orderly early)
      (Orderly early) := by
  unfold handleDetach
  refine trace_failIf_bind orderly_nil fun hsize => ?_
  refine trace_guardRange_bind orderly_reject fun hrange => trace_touch ?_
  have hcap : InRange ctx.arg0 16 := by
    rw [not_not.mp hsize] at hrange
    exact hrange
  refine trace_copyCapability_bind hcap fun cap => ?_
  refine trace_callKernel_bind orderly_copies fun _ result _ _ => ?_
  split
  · exact trace_pure _ orderly_copies
  all_goals exact trace_fail _ orderly_copies

theorem trace_guardInit_bind {α : Type} {initPtr initLen : BitVec 64}
    {f : Unit → Handler α} {Q : List UserEvent → Prop}
    (hrest : (initLen.toNat > 0 → InRange initPtr initLen.toNat) →
      TraceSpec (· = []) (f ()) Q (Orderly early)) :
    TraceSpec (· = []) (guardInit initPtr initLen >>= f) Q (Orderly early) := by
  unfold guardInit
  by_cases hpos : initLen.toNat > 0
  · rw [if_pos hpos]
    exact trace_guardRange_bind orderly_reject fun h => hrest fun _ => h
  · rw [if_neg hpos, pure_bind]
    exact hrest fun h => (hpos h).elim

theorem copyInit_trace {initPtr initLen : BitVec 64}
    (hrange : initLen.toNat > 0 → InRange initPtr initLen.toNat) :
    TraceSpec CheckedCopies (copyInit initPtr initLen) CheckedCopies
      (Orderly early) := by
  refine trace_ite (fun hpos => ?_) fun _ => trace_pure _ fun _ h => h
  rw [← bind_pure (copyIn _ _)]
  exact trace_read (hrange hpos) fun _ => trace_pure _ fun _ h => h

theorem finishAttach_trace (busKind : BusKind) (pkPrefix : Buf 4)
    {outPtr : BitVec 64} (hout : InRange outPtr 16)
    (result : Except HsmCapError HsmCapability) :
    TraceSpec CheckedCopies (finishAttach busKind pkPrefix outPtr result)
      (Orderly early) (Orderly early) := by
  unfold finishAttach
  split
  · rename_i cap
    refine trace_updateKernel_bind ?_
    refine trace_write ?_ (trace_pure _ orderly_copies)
    rw [HsmCapability.length_toBytes]
    exact hout
  · exact trace_updateKernel_bind (trace_fail _ orderly_copies)
  all_goals exact trace_fail _ orderly_copies

theorem handleAttach_orderly :
    TraceSpec (· = []) (handleAttach tlsExternal C destroy ctx)
      (Orderly early) (Orderly early) := by
  unfold handleAttach
  refine trace_bind (attachBusKind_trace tlsExternal early _) fun busKind => ?_
  refine trace_failIf_bind orderly_nil fun _ => ?_
  refine trace_failIf_bind orderly_nil fun _ => ?_
  refine trace_guardInit_bind early fun hinit => ?_
  refine trace_guardRange_bind orderly_reject fun hout => ?_
  refine trace_guardRange_bind orderly_reject fun hattest => trace_touch ?_
  refine trace_bind (copyInit_trace early hinit) fun init => ?_
  refine trace_read hattest fun payload => ?_
  refine trace_callKernel_bind orderly_copies fun _ result _ _ => ?_
  exact finishAttach_trace early busKind _ hout result

theorem handleWrite_orderly :
    TraceSpec (· = []) (handleWrite C ctx) (Orderly early) (Orderly early) := by
  unfold handleWrite
  refine trace_failIf_bind orderly_nil fun _ => ?_
  refine trace_guardRange_bind orderly_reject fun hcap => ?_
  refine trace_guardRange_bind orderly_reject fun hdata => trace_touch ?_
  refine trace_copyCapability_bind hcap fun cap => ?_
  refine trace_viewKernel_bind fun _ => ?_
  refine trace_failIf_bind orderly_copies fun _ => ?_
  refine trace_read hdata fun data => ?_
  split
  · exact trace_fail _ orderly_copies
  · refine trace_callKernel_bind orderly_copies fun _ result _ _ => ?_
    split
    · exact trace_pure _ orderly_copies
    · exact trace_fail _ orderly_copies

theorem handleRelay_orderly :
    TraceSpec (· = []) (handleRelay C ctx) (Orderly early) (Orderly early) := by
  unfold handleRelay
  refine trace_failIf_bind orderly_nil fun _ => ?_
  refine trace_guardRange_bind orderly_reject fun hsrc => ?_
  refine trace_guardRange_bind orderly_reject fun hdst => trace_touch ?_
  refine trace_copyCapability_bind hsrc fun srcCap => ?_
  refine trace_copyCapability_bind hdst fun dstCap => ?_
  refine trace_viewKernel_bind fun _ => ?_
  refine trace_viewKernel_bind fun _ => ?_
  refine trace_failIf_bind orderly_copies fun _ => ?_
  refine trace_callKernel_bind orderly_copies fun _ result _ _ => ?_
  split
  · exact trace_pure _ orderly_copies
  · exact trace_fail _ orderly_copies

theorem handleRead_orderly :
    TraceSpec (· = []) (handleRead ctx) (Orderly early) (Orderly early) := by
  unfold handleRead
  refine trace_failIf_bind orderly_nil fun _ => ?_
  refine trace_guardRange_bind orderly_reject fun hcap => ?_
  refine trace_guardRange_bind orderly_reject fun hout => trace_touch ?_
  refine trace_copyCapability_bind hcap fun cap => ?_
  refine trace_viewKernel_bind fun _ => ?_
  refine trace_failIf_bind orderly_copies fun _ => ?_
  split
  · exact trace_fail _ orderly_copies
  · rename_i i _
    refine trace_callKernel_bind orderly_copies fun K result _ hread => ?_
    split
    · exact trace_fail _ orderly_copies
    · rename_i bytes
      have hlen : bytes.length ≤ ctx.arg2.toNat :=
        BusInstance.length_read_le
          (congrArg Prod.fst (Option.some.inj hread))
      exact trace_write (hout.mono hlen) (trace_pure _ orderly_copies)

theorem length_infos_le (r : HsmRegistry) {count : BitVec 64}
    (hcount : count.toNat ≤ hsmMaxSlots) :
    ((r.enumerate (min count.toNat hsmMaxSlots)).flatMap
      HsmSlotInfo.toBytes).length ≤ (saturatingMul count 8).toNat := by
  have hle := r.length_enumerate_le (min count.toNat hsmMaxSlots)
  have hmul : (saturatingMul count 8).toNat = count.toNat * 8 := by
    unfold hsmMaxSlots at hcount
    have height : (8 : BitVec 64).toNat = 8 := rfl
    have hsmall : count.toNat * 8 < 2 ^ 64 := by omega
    rw [saturatingMul, height, if_pos hsmall, BitVec.toNat_mul, height,
      Nat.mod_eq_of_lt hsmall]
  have hlen : ((r.enumerate (min count.toNat hsmMaxSlots)).flatMap
      HsmSlotInfo.toBytes).length =
        (r.enumerate (min count.toNat hsmMaxSlots)).length * 8 := by
    simp [List.length_flatMap]
  rw [hmul, hlen]
  omega

/-- `handle_enumerate` may reject its output range after it has read its
capability, and after nothing else. -/
theorem handleEnumerate_orderly :
    TraceSpec (· = []) (handleEnumerate ctx)
      (Orderly [.read ctx.arg0 16]) (Orderly [.read ctx.arg0 16]) := by
  unfold handleEnumerate
  refine trace_guardRange_bind orderly_reject fun hcap => ?_
  have hcopy : CheckedCopies [.read ctx.arg0 16] := checkedCopies_nil.cons hcap
  unfold copyCapability
  rw [bind_assoc]
  refine trace_copyIn_bind (M := (· = [.read ctx.arg0 16])) ?_ fun bytes => ?_
  · rintro _ rfl
    rfl
  have hdone : ∀ t, t = [.read ctx.arg0 16] →
      Orderly [.read ctx.arg0 16] t := by
    rintro _ rfl
    exact hcopy.orderly _
  rw [pure_bind]
  refine trace_viewKernel_bind fun _ => ?_
  refine trace_failIf_bind hdone fun _ => ?_
  refine trace_failIf_bind hdone fun hcount => ?_
  refine trace_guardRange_bind ?_ fun hout => ?_
  · rintro _ rfl
    exact orderly_rejected_early hcopy _ _
  refine trace_touch_after hcopy (trace_viewKernel_bind fun K => ?_)
  refine trace_write (hout.mono ?_) (trace_pure _ orderly_copies)
  exact length_infos_le K.registry (Nat.not_lt.mp hcount)

end Registry

/-! ## The other handlers -/

section Others

variable (tlsExternal : Bool) (C : Crates) (destroy : BusInstance.Destructor)
  (ctx : SyscallContext) (early : List UserEvent)

theorem takeCap_orderly (shot : OneShot) :
    TraceSpec (· = []) (takeCap shot ctx) (Orderly early) (Orderly early) := by
  unfold takeCap
  refine trace_guardRange_bind orderly_reject fun hout => trace_touch ?_
  refine trace_viewKernel_bind fun _ => ?_
  refine trace_denyIf_bind orderly_copies ?_
  refine trace_viewKernel_bind fun K => ?_
  refine trace_write ?_ ?_
  · rw [HsmCapability.length_toBytes]
    exact hout
  · exact trace_updateKernel_bind
      (trace_updateKernel_bind (trace_pure _ orderly_copies))

theorem handleStatus_orderly :
    TraceSpec (· = []) (handleStatus ctx) (Orderly early) (Orderly early) := by
  unfold handleStatus
  refine trace_failIf_bind orderly_nil fun hlen => ?_
  refine trace_viewKernel_bind fun _ => ?_
  refine trace_denyIf_bind orderly_nil ?_
  refine trace_guardRange_bind orderly_reject fun hout => trace_touch ?_
  refine trace_viewKernel_bind fun K => ?_
  refine trace_write (hout.mono ?_) (trace_pure _ orderly_copies)
  rw [length_gapStatus]
  exact Nat.not_lt.mp hlen

theorem sysWriteLoop_trace (src : BitVec 64) (remaining : ℕ)
    (h : InRange src remaining) :
    TraceSpec CheckedCopies (sysWriteLoop src remaining) CheckedCopies
      (Orderly early) := by
  fun_induction sysWriteLoop src remaining with
  | case1 src => exact trace_pure _ fun _ h => h
  | case2 src remaining hne chunk ih =>
    have hchunk : chunk ≤ remaining := min_le_left _ _
    refine trace_read (h.mono hchunk) fun _ => ?_
    exact ih (h.advance hchunk)

theorem sysWrite_orderly (fd bufPtr len : BitVec 64) :
    TraceSpec (· = []) (sysWrite fd bufPtr len) (Orderly early)
      (Orderly early) := by
  unfold sysWrite
  refine trace_failIf_bind orderly_nil fun _ => ?_
  refine trace_failIf_bind orderly_nil fun _ => ?_
  refine trace_guardRange_bind orderly_reject fun hbuf => trace_touch ?_
  refine trace_bind (sysWriteLoop_trace early _ _ hbuf) fun _ => ?_
  exact trace_pure _ orderly_copies

theorem sysGetrandomLoop_trace (dst : BitVec 64) (remaining : ℕ)
    (h : InRange dst remaining) :
    TraceSpec CheckedCopies (sysGetrandomLoop dst remaining) CheckedCopies
      (Orderly early) := by
  fun_induction sysGetrandomLoop dst remaining with
  | case1 dst => exact trace_pure _ fun _ h => h
  | case2 dst remaining hne chunk ih =>
    have hchunk : chunk ≤ remaining := min_le_left _ _
    refine trace_callKernel_bind orderly_copies fun _ result _ _ => ?_
    cases result with
    | error e => exact trace_fail _ orderly_copies
    | ok tmp =>
      refine trace_write ?_ (ih (h.advance hchunk))
      rw [Buf.length_toList]
      exact h.mono hchunk

theorem sysGetrandom_orderly (bufPtr len : BitVec 64) :
    TraceSpec (· = []) (sysGetrandom bufPtr len) (Orderly early)
      (Orderly early) := by
  unfold sysGetrandom
  refine trace_failIf_bind orderly_nil fun _ => ?_
  refine trace_guardRange_bind orderly_reject fun hbuf => trace_touch ?_
  refine trace_bind (sysGetrandomLoop_trace early _ _ hbuf) fun _ => ?_
  exact trace_pure _ orderly_copies

end Others

/-! ## Every call -/

/-- What a rejected call may have touched before the rejection. -/
def earlyCopies (ctx : SyscallContext) : List UserEvent :=
  if ctx.num = 9 then [.read ctx.arg0 16] else []

theorem dispatch_orderly (tlsExternal : Bool) (C : Crates)
    (destroy : BusInstance.Destructor) (ctx : SyscallContext) :
    TraceSpec (· = []) (dispatch tlsExternal C destroy ctx)
      (Orderly (earlyCopies ctx)) (Orderly (earlyCopies ctx)) := by
  unfold dispatch
  refine trace_ite (fun _ => ?_) fun _ => ?_
  · exact Triple.throw _ fun m => orderly_nil m.trace
  refine trace_ite (fun _ => sysWrite_orderly _ _ _ _) fun _ => ?_
  refine trace_ite (fun _ => sysGetrandom_orderly _ _ _) fun _ => ?_
  refine trace_ite (fun _ => handleAttach_orderly _ _ _ _ _) fun _ => ?_
  refine trace_ite (fun _ => handleDetach_orderly _ _ _) fun _ => ?_
  refine trace_ite (fun hnum => ?_) fun _ => ?_
  · rw [earlyCopies, if_pos hnum]
    exact handleEnumerate_orderly ctx
  refine trace_ite (fun _ => handleWrite_orderly _ _ _) fun _ => ?_
  refine trace_ite (fun _ => handleRelay_orderly _ _ _) fun _ => ?_
  refine trace_ite (fun _ => handleRead_orderly _ _) fun _ => ?_
  refine trace_ite (fun _ => takeCap_orderly _ _ _) fun _ => ?_
  refine trace_ite (fun _ => takeCap_orderly _ _ _) fun _ => ?_
  refine trace_ite (fun _ => handleStatus_orderly _ _) fun _ => ?_
  exact trace_fail _ orderly_nil

theorem TraceSpec.final {α : Type} {T F : List UserEvent → Prop}
    {x : Handler α} (h : TraceSpec T x F F) {m : Machine} (hm : T m.trace) :
    F (x.eval m).2.trace := by
  obtain ⟨hok, hexit⟩ := h m hm
  rcases hresult : x.eval m with ⟨e | a, m'⟩
  · exact hexit e m' hresult
  · exact hok a m' hresult

/-- For every call and all register values: each user octet that the kernel
touches lies in the user window, without wrap-around, and a call that rejects
a user range has touched nothing, except that `handle_enumerate` may have read
its 16 capability octets by then. -/
theorem dispatch_user_accesses (tlsExternal : Bool) (C : Crates)
    (destroy : BusInstance.Destructor) (ctx : SyscallContext) (K : Kernel)
    (user : Mem) :
    let trace :=
      ((dispatch tlsExternal C destroy ctx).eval ⟨K, user, []⟩).2.trace
    (∀ e ∈ trace, e.InWindow) ∧
      ∀ ptr len, .rejected ptr len ∈ trace →
        trace = [.rejected ptr len] ∨
          (ctx.num = 9 ∧ trace = [.rejected ptr len, .read ctx.arg0 16]) := by
  intro trace
  have horderly : Orderly (earlyCopies ctx) trace :=
    (dispatch_orderly tlsExternal C destroy ctx).final rfl
  refine ⟨horderly.1, ?_⟩
  intro ptr len hmem
  rcases horderly.2 ptr len hmem with hnone | hearly
  · exact .inl hnone
  · by_cases hnum : ctx.num = 9
    · rw [earlyCopies, if_pos hnum] at hearly
      exact .inr ⟨hnum, hearly⟩
    · rw [earlyCopies, if_neg hnum] at hearly
      exact .inl hearly

def UserEvent.Touches : UserEvent → BitVec 64 → Prop
  | rejected _ _, _ => False
  | read ptr len, a | write ptr len, a => ∃ k < len, a = ptr + BitVec.ofNat 64 k

/-- No address of a rejected range has been touched. -/
def AvoidsRejected (trace : List UserEvent) : Prop :=
  ∀ ptr len, .rejected ptr len ∈ trace → ∀ e ∈ trace, ∀ k < len.toNat,
    ¬ e.Touches (ptr + BitVec.ofNat 64 k)

/-- A kernel whose slot 0 is attached with token 5 and all rights. -/
def attachedKernel : Kernel :=
  .attachedAt 0 fullRights (.software (SoftwareBus.opened .echo none))

/-- The capability of that slot, 32 octets below the end of the window. -/
def capabilityMemory : Mem :=
  Mem.write (fun _ => 0) (2 ^ 47 - 32)
    (HsmCapability.issued 5 0 fullRights).toBytes

/-- An enumeration whose capability lies inside the output range reads it and
then rejects the output range, which leaves the window. -/
theorem enumerate_touches_rejected_range :
    ¬ AvoidsRejected
      ((dispatch false Crates.inert (fun _ => some ())
        { num := 9
          arg0 := BitVec.ofNat 64 (2 ^ 47 - 32)
          arg1 := BitVec.ofNat 64 (2 ^ 47 - 32)
          arg2 := 8
          arg3 := 0
          arg4 := 0
          arg5 := 0 }).eval ⟨attachedKernel, capabilityMemory, []⟩).2.trace := by
  intro havoids
  have htrace := havoids (BitVec.ofNat 64 (2 ^ 47 - 32)) 64
    (List.mem_cons_self) _ (List.mem_cons_of_mem _ List.mem_cons_self) 0
    (by decide)
  exact htrace ⟨0, by decide, rfl⟩

end IsoLightK0
