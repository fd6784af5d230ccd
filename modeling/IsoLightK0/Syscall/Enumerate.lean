import IsoLightK0.Syscall.Handlers

/-!
# What an enumeration reports

`HsmRegistry::enumerate` compares the slot index, and not the number of
entries written, with the length of the output slice.  It therefore looks at
the first slots only, and an attached slot behind them is left out even when
the slice has room for it.  The module says for which registries and lengths
that makes a difference, for the registry and for the system call.
-/

namespace IsoLightK0

open Bytes Triples Handler

section Lists

variable {α : Type*}

/-- Filtering the first `n` elements gives the first `n` filtered elements
exactly if all of the first `n` pass or none of the others does. -/
theorem filter_take_eq_take_filter_iff (p : α → Bool) (xs : List α) (n : ℕ) :
    (xs.take n).filter p = (xs.filter p).take n ↔
      (∀ x ∈ xs.take n, p x = true) ∨ ∀ x ∈ xs.drop n, ¬ p x = true := by
  have hsplit : xs.filter p = (xs.take n).filter p ++ (xs.drop n).filter p := by
    rw [← List.filter_append, List.take_append_drop]
  have hfront : ((xs.take n).filter p).length ≤ n :=
    (List.length_filter_le _ _).trans (List.length_take_le _ _)
  rw [hsplit, List.take_append, List.take_of_length_le hfront,
    List.self_eq_append_right, List.take_eq_nil_iff, List.filter_eq_nil_iff]
  constructor
  · rintro (hfull | hnone)
    · left
      rw [← List.length_filter_eq_length_iff]
      have hle := List.length_filter_le p (xs.take n)
      have htake := List.length_take_le n xs
      omega
    · exact .inr hnone
  · rintro (hall | hnone)
    · rw [List.length_filter_eq_length_iff.mpr hall, List.length_take]
      rcases Nat.le_total n xs.length with hle | hle
      · exact .inl (by omega)
      · -- the list ends within the first `n`, nothing is left behind them
        rw [List.drop_eq_nil_of_le hle]
        exact .inr fun x hx => absurd hx List.not_mem_nil
    · exact .inr hnone

end Lists

namespace HsmRegistry

def attachedSlots (r : HsmRegistry) : List SlotIdx :=
  (List.finRange 8).filter fun i => (r.slots i).state = .attached

def attachedInfos (r : HsmRegistry) : List HsmSlotInfo :=
  r.attachedSlots.map fun i => (r.slots i).info i

/-- No attached slot lies at or behind index `n` while one before it is
free. -/
def NoGap (r : HsmRegistry) (n : ℕ) : Prop :=
  ∀ i j : SlotIdx, i.val < n → n ≤ j.val → (r.slots j).state = .attached →
    (r.slots i).state = .attached

theorem enumerate_eq (r : HsmRegistry) (outLen : ℕ) :
    r.enumerate outLen =
      (((List.finRange 8).take outLen).filter fun i =>
        (r.slots i).state = .attached).map fun i => (r.slots i).info i := by
  have hcap : (List.finRange 8).take (min outLen hsmMaxSlots) =
      (List.finRange 8).take outLen := by
    rw [List.take_eq_take_iff, List.length_finRange]
    unfold hsmMaxSlots
    omega
  rw [enumerate, hcap]
  induction (List.finRange 8).take outLen with
  | nil => rfl
  | cons i rest ih =>
    by_cases hstate : (r.slots i).state = .attached
    · simp [hstate, ih]
    · simp [hstate, ih]

theorem mem_take_finRange (n : ℕ) (i : SlotIdx) :
    i ∈ (List.finRange 8).take n ↔ i.val < n := by
  rw [List.mem_take_iff_getElem]
  constructor
  · rintro ⟨k, hk, rfl⟩
    rw [List.getElem_finRange]
    simp only [Fin.val_cast]
    omega
  · intro hi
    exact ⟨i.val, by simp [hi], by simp⟩

theorem mem_drop_finRange (n : ℕ) (i : SlotIdx) :
    i ∈ (List.finRange 8).drop n ↔ n ≤ i.val := by
  rw [List.mem_drop_iff_getElem]
  constructor
  · rintro ⟨k, hk, rfl⟩
    rw [List.getElem_finRange]
    simp
  · intro hi
    refine ⟨i.val - n, ?_, ?_⟩
    · rw [List.length_finRange]
      omega
    · rw [List.getElem_finRange]
      ext
      simp [hi]

theorem noGap_iff (r : HsmRegistry) (n : ℕ) :
    r.NoGap n ↔
      ((List.finRange 8).take n).filter
          (fun i => (r.slots i).state = .attached) =
        r.attachedSlots.take n := by
  rw [attachedSlots, filter_take_eq_take_filter_iff]
  simp only [mem_take_finRange, mem_drop_finRange, decide_eq_true_eq]
  constructor
  · intro hgap
    by_contra hnot
    push Not at hnot
    obtain ⟨⟨i, hi, hfree⟩, j, hj, hattached⟩ := hnot
    exact hfree (hgap i j hi hj hattached)
  · rintro (hall | hnone) i j hi hj hattached
    · exact hall i hi
    · exact absurd hattached (hnone j hj)

/-- The entries written are the first `outLen` entries of the attached slots
exactly if there is no gap. -/
theorem enumerate_eq_take_iff (r : HsmRegistry) (outLen : ℕ) :
    r.enumerate outLen = r.attachedInfos.take outLen ↔ r.NoGap outLen := by
  have hinj : Function.Injective fun i => (r.slots i).info i := by
    intro i j hij
    have hslot : BitVec.ofNat 8 i.val = BitVec.ofNat 8 j.val :=
      congrArg HsmSlotInfo.slot hij
    have hval := congrArg BitVec.toNat hslot
    rw [BitVec.toNat_ofNat, BitVec.toNat_ofNat,
      Nat.mod_eq_of_lt (by omega), Nat.mod_eq_of_lt (by omega)] at hval
    exact Fin.ext hval
  rw [enumerate_eq, attachedInfos, ← List.map_take,
    (List.map_injective_iff.mpr hinj).eq_iff, noGap_iff]

/-- The number written is the smaller of `outLen` and the number of attached
slots exactly if there is no gap. -/
theorem length_enumerate_iff (r : HsmRegistry) (outLen : ℕ) :
    (r.enumerate outLen).length = min outLen r.attachedSlots.length ↔
      r.NoGap outLen := by
  rw [enumerate_eq, List.length_map, noGap_iff, ← List.length_take]
  constructor
  · intro hlen
    -- what is written is a prefix, so equal lengths make it everything
    apply List.IsPrefix.eq_of_length _ hlen
    rw [List.prefix_take_iff]
    refine ⟨(List.take_prefix _ _).filter _, ?_⟩
    exact (List.length_filter_le _ _).trans (List.length_take_le _ _)
  · intro heq
    rw [heq]

end HsmRegistry

/-! ## The system call -/

/-- A call of `sys_hsm_enumerate` whose capability authenticates, whose count
is in range and whose output range lies in the user window. -/
structure EnumerateAdmitted (K : Kernel) (user : Mem)
    (ctx : SyscallContext) : Prop where
  capRange : userRangeOk ctx.arg0 capSize = true
  authentic : K.registry.authenticate
    (HsmCapability.ofBytes (user.read ctx.arg0.toNat 16))
    HsmRights.enumerate = true
  count_le : ctx.arg2.toNat ≤ hsmMaxSlots
  outRange : userRangeOk ctx.arg1 (saturatingMul ctx.arg2 8) = true

theorem syscall_handleEnumerate {K : Kernel} {user : Mem}
    {ctx : SyscallContext} (h : EnumerateAdmitted K user ctx) :
    (handleEnumerate ctx).syscall K user =
      some ((BitVec.ofNat 64 (K.registry.enumerate ctx.arg2.toNat).length,
        user.write ctx.arg1.toNat
          ((K.registry.enumerate ctx.arg2.toNat).flatMap
            HsmSlotInfo.toBytes)), K) := by
  have hcount : ¬ ctx.arg2.toNat > hsmMaxSlots := Nat.not_lt.mpr h.count_le
  have hauth : ¬ K.registry.authenticate
      (HsmCapability.ofBytes (user.read ctx.arg0.toNat 16))
      HsmRights.enumerate = false := by
    rw [h.authentic]
    decide
  rw [Handler.syscall, handleEnumerate,
    eval_guardRange_bind_of_ok _ _ _ h.capRange, eval_copyCapability_bind,
    eval_viewKernel_bind, eval_failIf_bind_of_not _ _ _ hauth,
    eval_failIf_bind_of_not _ _ _ hcount,
    eval_guardRange_bind_of_ok _ _ _ h.outRange, eval_viewKernel_bind,
    Nat.min_eq_left h.count_le, Prog.eval_bind, eval_copyOut]
  rfl

/-- The call returns the smaller of its count and the number of attached
slots, and writes that many entries, in slot order. -/
def ReportsAttached (K : Kernel) (user : Mem) (ctx : SyscallContext) :
    Prop :=
  (handleEnumerate ctx).syscall K user =
    some ((BitVec.ofNat 64
        (min ctx.arg2.toNat K.registry.attachedSlots.length),
      user.write ctx.arg1.toNat
        ((K.registry.attachedInfos.take ctx.arg2.toNat).flatMap
          HsmSlotInfo.toBytes)), K)

theorem reportsAttached_iff {K : Kernel} {user : Mem} {ctx : SyscallContext}
    (h : EnumerateAdmitted K user ctx) :
    ReportsAttached K user ctx ↔ K.registry.NoGap ctx.arg2.toNat := by
  rw [ReportsAttached, syscall_handleEnumerate h]
  constructor
  · intro heq
    have hvalue : BitVec.ofNat 64
          (K.registry.enumerate ctx.arg2.toNat).length =
        BitVec.ofNat 64
          (min ctx.arg2.toNat K.registry.attachedSlots.length) :=
      congrArg (fun r => r.1.1) (Option.some.inj heq)
    have hle := K.registry.length_enumerate_le ctx.arg2.toNat
    have hcount := h.count_le
    unfold hsmMaxSlots at hle hcount
    have hlen := congrArg BitVec.toNat hvalue
    rw [BitVec.toNat_ofNat, BitVec.toNat_ofNat, Nat.mod_eq_of_lt (by omega),
      Nat.mod_eq_of_lt (by omega)] at hlen
    exact (K.registry.length_enumerate_iff _).mp hlen
  · intro hgap
    rw [(K.registry.length_enumerate_iff _).mpr hgap,
      (K.registry.enumerate_eq_take_iff _).mpr hgap]

/-- An enumeration with room for `outLen` entries writes the first of the
attached slots, as many as there are and fit, exactly if no attached slot
lies behind a free one across index `outLen`; and so does every admitted
system call with that count. -/
theorem enumerate_reports_attached_iff (r : HsmRegistry) (outLen : ℕ) :
    (r.enumerate outLen = r.attachedInfos.take outLen ∧
          (r.enumerate outLen).length = min outLen r.attachedSlots.length ↔
        r.NoGap outLen) ∧
      ∀ (K : Kernel) (user : Mem) (ctx : SyscallContext), K.registry = r →
        ctx.arg2.toNat = outLen → EnumerateAdmitted K user ctx →
          (ReportsAttached K user ctx ↔ r.NoGap outLen) := by
  constructor
  · rw [r.enumerate_eq_take_iff, r.length_enumerate_iff, and_self_iff]
  · rintro K user ctx rfl rfl hcall
    exact reportsAttached_iff hcall

/-- A kernel in which slot 1 is attached and slot 0 is free. -/
def gapKernel : Kernel :=
  .attachedAt 1 fullRights (.software (SoftwareBus.opened .echo none))

/-- The capability of that slot at address 4096. -/
def gapMemory : Mem :=
  Mem.write (fun _ => 0) 4096 (HsmCapability.issued 5 1 fullRights).toBytes

def enumerateOne : SyscallContext where
  num := 9
  arg0 := 4096
  arg1 := 8192
  arg2 := 1
  arg3 := 0
  arg4 := 0
  arg5 := 0

/-- One slot is attached and there is room for one entry, yet none is
reported. -/
theorem enumerate_misses_attached_slot :
    EnumerateAdmitted gapKernel gapMemory enumerateOne ∧
      gapKernel.registry.attachedSlots = [1] ∧
      gapKernel.registry.enumerate 1 = [] ∧
      ¬ ReportsAttached gapKernel gapMemory enumerateOne := by
  have hadmitted : EnumerateAdmitted gapKernel gapMemory enumerateOne :=
    ⟨by decide, by decide, by decide, by decide⟩
  refine ⟨hadmitted, by decide, rfl, ?_⟩
  rw [reportsAttached_iff hadmitted]
  intro hgap
  exact absurd (hgap 0 1 (by decide) (by decide) (by decide)) (by decide)

end IsoLightK0
