import IsoLightK0.Support.Bytes

/-!
# The capability DRBG

`capability.rs` draws every token and key from one Hash-DRBG instance,
`CAP_DRBG`.  The generator itself lives in an external crate, so it is
represented by what its successive `generate` calls answer: a tape of
outcomes.  Statements quantify over every tape, hence over every behaviour of
the crate and of the entropy sources behind a reseed.

The retry loops of `rand_bytes` and `gen_token_u64` consume the tape.  A loop
that reaches the end of the tape has not returned, which is the value `none`.

A reseed collects entropy, and the collection writes to the audit ring.  The
tape carries these events with the answer, so that a caller finds the events of
its draws in what it has consumed.
-/

namespace IsoLightK0

open Bytes

inductive CapError
  | invalidSlot
  | noGrantRight
  | slotsFull
  | prngNotInitialized
  | noEntropy
  | drbgInit
  deriving DecidableEq, Repr

/-- The arguments of one `audit_enqueue` call. -/
structure AuditCall where
  slotIdx : Byte
  result : Byte
  busKind : Byte
  pkPrefix : Buf 4

/-- What one call of `HashDRBGSHA256::generate` answers. -/
inductive DrbgOutcome
  /-- `Ok(())`; the output buffer holds the first bytes of the stream. -/
  | generated (stream : Mem)
  /-- `Err(ReseedRequired)`, with the audit events and the result of the
  `reseed_drbg` that follows. -/
  | reseedRequired (events : List AuditCall) (reseed : Except CapError Unit)
  /-- Any other `DrbgError`. -/
  | failed

def DrbgOutcome.events : DrbgOutcome → List AuditCall
  | .generated _ => []
  | .reseedRequired events _ => events
  | .failed => []

/-- `CAP_DRBG`, `none` before `init_prng`. -/
abbrev CapDrbg := Option (List DrbgOutcome)

/-- The audit events of the answers that were consumed between two states of
the generator. -/
def reseedEvents (before after : CapDrbg) : List AuditCall :=
  let tape := before.getD []
  (tape.take (tape.length - (after.getD []).length)).flatMap
    DrbgOutcome.events

/-- The first `n` bytes of a generated stream. -/
def fillBuf (n : ℕ) (stream : Mem) : Buf n := fun i => stream i

/-- The loop of `rand_bytes` for a buffer of `n` bytes. -/
def randBytesLoop (n : ℕ) :
    List DrbgOutcome → Option (Except CapError (Buf n) × List DrbgOutcome)
  | [] => none
  | .generated stream :: tape => some (.ok (fillBuf n stream), tape)
  | .reseedRequired _ (.ok ()) :: tape => randBytesLoop n tape
  | .reseedRequired _ (.error e) :: tape => some (.error e, tape)
  | .failed :: tape => some (.error .drbgInit, tape)

/-- `rand_bytes` on a buffer of `n` bytes. -/
def randBytes (n : ℕ) (drbg : CapDrbg) :
    Option (Except CapError (Buf n) × CapDrbg) :=
  match drbg with
  | none => some (.error .prngNotInitialized, none)
  | some tape =>
    (randBytesLoop n tape).map fun (r, rest) => (r, some rest)

/-- `u64::from_be_bytes` on the eight token bytes. -/
def u64FromBeBytes (bytes : Buf 8) : BitVec 64 :=
  BitVec.ofNat 64 (ofLe (bytes.slice 0 8).reverse)

/-- The loop of `gen_token_u64`: a zero token is drawn again. -/
def genTokenLoop :
    List DrbgOutcome → Option (Except CapError (BitVec 64) × List DrbgOutcome)
  | [] => none
  | .generated stream :: tape =>
    let token := u64FromBeBytes (fillBuf 8 stream)
    if token ≠ 0 then some (.ok token, tape) else genTokenLoop tape
  | .reseedRequired _ (.ok ()) :: tape => genTokenLoop tape
  | .reseedRequired _ (.error e) :: tape => some (.error e, tape)
  | .failed :: tape => some (.error .drbgInit, tape)

def genTokenU64 (drbg : CapDrbg) :
    Option (Except CapError (BitVec 64) × CapDrbg) :=
  match drbg with
  | none => some (.error .prngNotInitialized, none)
  | some tape => (genTokenLoop tape).map fun (r, rest) => (r, some rest)

theorem genTokenLoop_ne_zero {tape rest : List DrbgOutcome}
    {token : BitVec 64} (h : genTokenLoop tape = some (.ok token, rest)) :
    token ≠ 0 := by
  fun_induction genTokenLoop tape with
  | case1 => simp at h
  | case2 stream tape t hne =>
    obtain ⟨rfl, -⟩ : t = token ∧ tape = rest := by simpa using h
    exact hne
  | case3 stream tape t hzero ih => exact ih h
  | case4 events tape ih => exact ih h
  | case5 events e tape => simp at h
  | case6 tape => simp at h

/-- Whatever the generator does, a token that is handed out is nonzero. -/
theorem genTokenU64_ne_zero {drbg rest : CapDrbg} {token : BitVec 64}
    (h : genTokenU64 drbg = some (.ok token, rest)) : token ≠ 0 := by
  cases drbg with
  | none => simp [genTokenU64] at h
  | some tape =>
    obtain ⟨⟨r, rest'⟩, hloop, heq⟩ := Option.map_eq_some_iff.mp h
    obtain ⟨rfl, -⟩ : r = .ok token ∧ some rest' = rest := by
      simpa using heq
    exact genTokenLoop_ne_zero hloop

/-! ## Consumed answers -/

/-- The generator reaches `after` from `before` by consuming answers. -/
def DrawnFrom (before after : CapDrbg) : Prop :=
  after.getD [] <:+ before.getD []

theorem DrawnFrom.refl (drbg : CapDrbg) : DrawnFrom drbg drbg :=
  List.suffix_rfl

theorem DrawnFrom.trans {a b c : CapDrbg} (h : DrawnFrom a b)
    (h' : DrawnFrom b c) : DrawnFrom a c :=
  List.IsSuffix.trans h' h

theorem reseedEvents_eq {before after : CapDrbg} {used : List DrbgOutcome}
    (h : used ++ after.getD [] = before.getD []) :
    reseedEvents before after = used.flatMap DrbgOutcome.events := by
  simp [reseedEvents, ← h]

@[simp] theorem reseedEvents_self (drbg : CapDrbg) :
    reseedEvents drbg drbg = [] :=
  reseedEvents_eq (List.nil_append _)

theorem reseedEvents_trans {a b c : CapDrbg} (h : DrawnFrom a b)
    (h' : DrawnFrom b c) :
    reseedEvents a c = reseedEvents a b ++ reseedEvents b c := by
  obtain ⟨used, hused⟩ := h
  obtain ⟨used', hused'⟩ := h'
  have hboth : (used ++ used') ++ c.getD [] = a.getD [] := by
    rw [List.append_assoc, hused', hused]
  rw [reseedEvents_eq hused, reseedEvents_eq hused', reseedEvents_eq hboth,
    List.flatMap_append]

theorem randBytesLoop_suffix {n : ℕ} {tape rest : List DrbgOutcome}
    {r : Except CapError (Buf n)}
    (h : randBytesLoop n tape = some (r, rest)) : rest <:+ tape := by
  fun_induction randBytesLoop n tape with
  | case1 => cases h
  | case2 | case4 | case5 =>
    cases h
    exact List.suffix_cons _ _
  | case3 events tape ih => exact (ih h).trans (List.suffix_cons _ _)

theorem genTokenLoop_suffix {tape rest : List DrbgOutcome}
    {r : Except CapError (BitVec 64)}
    (h : genTokenLoop tape = some (r, rest)) : rest <:+ tape := by
  fun_induction genTokenLoop tape with
  | case1 => cases h
  | case2 | case5 | case6 =>
    cases h
    exact List.suffix_cons _ _
  | case3 stream tape t hzero ih | case4 events tape ih =>
    exact (ih h).trans (List.suffix_cons _ _)

theorem randBytes_drawn {n : ℕ} {drbg rest : CapDrbg}
    {r : Except CapError (Buf n)} (h : randBytes n drbg = some (r, rest)) :
    DrawnFrom drbg rest := by
  cases drbg with
  | none =>
    cases h
    exact DrawnFrom.refl none
  | some tape =>
    obtain ⟨_, hloop, heq⟩ := Option.map_eq_some_iff.mp h
    cases heq
    exact randBytesLoop_suffix hloop

theorem genTokenU64_drawn {drbg rest : CapDrbg}
    {r : Except CapError (BitVec 64)} (h : genTokenU64 drbg = some (r, rest)) :
    DrawnFrom drbg rest := by
  cases drbg with
  | none =>
    cases h
    exact DrawnFrom.refl none
  | some tape =>
    obtain ⟨_, hloop, heq⟩ := Option.map_eq_some_iff.mp h
    cases heq
    exact genTokenLoop_suffix hloop

end IsoLightK0
