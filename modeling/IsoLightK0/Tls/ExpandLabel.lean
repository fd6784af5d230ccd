import IsoLightK0.Tls.Schedule

/-!
# The buffer of an expanded label

`hkdf_expand_label` encodes its label in a buffer of 128 octets.  Here every
access to that buffer is checked as Rust checks it, and an access out of range
ends the program.  The length checks of the function admit labels of up to 249
octets, for which there is no room in the buffer.
-/

namespace IsoLightK0

open Bytes

/-- Copy octets into the buffer, or panic if they do not fit. -/
def copyAt (info : Buf labelBufLen) (p : ℕ) (octets : List Byte) :
    Except TlsStop (Buf labelBufLen) :=
  if p + octets.length ≤ labelBufLen then .ok (info.blit p octets)
  else .error .stuck

variable (sha256 : List Byte → Buf 32)

/-- `hkdf_expand_label` into `outLen` octets. -/
def hkdfExpandLabelBuffered (secret : Buf 32) (label context : List Byte)
    (outLen : ℕ) : Except TlsStop (List Byte) :=
  let prefixedLabelLen := 6 + label.length
  if 255 < prefixedLabelLen ∨ 255 < context.length then
    .error (.error .internal)
  else if 65535 < outLen then
    .error (.error .internal)
  else do
    let info ← copyAt Buf.zero 0 (toLe 2 outLen).reverse
    let info ← copyAt info 2 [BitVec.ofNat 8 prefixedLabelLen]
    let info ← copyAt info 3 (ascii ['t', 'l', 's', '1', '3', ' '])
    let info ← copyAt info 9 label
    let info ← copyAt info (9 + label.length)
      [BitVec.ofNat 8 context.length]
    if labelBufLen < 10 + label.length + context.length then
      .error (.error .internal)
    else do
      let info ← copyAt info (10 + label.length) context
      match hkdfExpand sha256 secret
          (info.slice 0 (10 + label.length + context.length)) outLen with
      | none => .error (.error .internal)
      | some okm => .ok okm

variable {sha256}

section Copies

variable {α : Type} {f : Buf labelBufLen → Except TlsStop α}
  {xs ys : List Byte} {p : ℕ}

theorem copyAt_zero_bind (hfit : ys.length ≤ labelBufLen) :
    (copyAt Buf.zero 0 ys >>= f) = f (Buf.zero.blit 0 ys) := by
  rw [copyAt, Nat.zero_add, if_pos hfit]
  rfl

/-- Octets that are copied right behind those copied before. -/
theorem copyAt_append_bind (hp : p = xs.length)
    (hfit : p + ys.length ≤ labelBufLen) :
    (copyAt (Buf.zero.blit 0 xs) p ys >>= f) =
      f (Buf.zero.blit 0 (xs ++ ys)) := by
  rw [copyAt, if_pos hfit, ← Buf.blit_blit_append, Nat.zero_add, ← hp]
  rfl

theorem copyAt_bind_of_lt {info : Buf labelBufLen}
    (hlong : labelBufLen < p + ys.length) :
    (copyAt info p ys >>= f) = .error .stuck := by
  rw [copyAt, if_neg (Nat.not_le.mpr hlong)]
  rfl

end Copies

variable (sha256)

/-- The function of the key schedule is the one with the buffer: it stops where
an access is out of range, and otherwise the buffer holds the encoded label. -/
theorem hkdfExpandLabelBuffered_eq (secret : Buf 32)
    (label context : List Byte) (outLen : ℕ) :
    hkdfExpandLabelBuffered sha256 secret label context outLen =
      hkdfExpandLabel sha256 secret label context outLen := by
  have hsize : labelBufLen = 128 := rfl
  have htag : (ascii ['t', 'l', 's', '1', '3', ' ']).length = 6 := rfl
  have hlen : (toLe 2 outLen).reverse.length = 2 := by simp
  rw [hkdfExpandLabelBuffered, hkdfExpandLabel]
  dsimp only
  by_cases hlengths : 255 < 6 + label.length ∨ 255 < context.length
  · rw [if_pos hlengths, if_pos hlengths]
  by_cases hout : 65535 < outLen
  · rw [if_neg hlengths, if_neg hlengths, if_pos hout, if_pos hout]
  rw [if_neg hlengths, if_neg hlengths, if_neg hout, if_neg hout,
    copyAt_zero_bind (by omega),
    copyAt_append_bind hlen.symm (by rw [List.length_singleton]; omega),
    copyAt_append_bind (by simp) (by omega)]
  by_cases hlabel : labelBufLen < 9 + label.length
  · rw [copyAt_bind_of_lt hlabel, if_pos hlabel.le]
  rw [copyAt_append_bind (by simp [htag]) (Nat.not_lt.mp hlabel)]
  by_cases hcontext : labelBufLen ≤ 9 + label.length
  · rw [copyAt_bind_of_lt (Nat.lt_succ_of_le hcontext), if_pos hcontext]
  rw [copyAt_append_bind (by simp [htag]; omega)
    (Nat.succ_le_of_lt (Nat.not_le.mp hcontext)), if_neg hcontext]
  by_cases htotal : labelBufLen < 10 + label.length + context.length
  · rw [if_pos htotal, if_pos htotal]
  have hfit := Nat.not_lt.mp htotal
  rw [if_neg htotal, if_neg htotal,
    copyAt_append_bind (by simp [htag]; omega) hfit]
  have hencoded : ∀ octets : List Byte,
      octets.length = 10 + label.length + context.length →
        (Buf.zero (n := labelBufLen).blit 0 octets).slice 0
          (10 + label.length + context.length) = octets := by
    intro octets hoctets
    exact Buf.slice_blit_of_length _ (by omega) hoctets
  rewrite [hencoded _ (by simp [htag]; omega)]
  rfl

/-! ## When a label is expanded -/

section Labels

variable (secret : Buf 32) {label context : List Byte} {outLen : ℕ}

/-- A label that the length checks admit and that does not fit the buffer. -/
theorem hkdfExpandLabel_of_long (hlong : 119 ≤ label.length)
    (hlabel : label.length ≤ 249) (hcontext : context.length ≤ 255)
    (hout : outLen ≤ 65535) :
    hkdfExpandLabel sha256 secret label context outLen = .error .stuck := by
  have hlengths : ¬ (255 < 6 + label.length ∨ 255 < context.length) := by
    omega
  have hbuffer : labelBufLen ≤ 9 + label.length := by
    change 128 ≤ 9 + label.length
    omega
  rw [hkdfExpandLabel, if_neg hlengths, if_neg (Nat.not_lt.mpr hout),
    if_pos hbuffer]

theorem hkdfExpandLabel_of_too_long
    (h : 249 < label.length ∨ 255 < context.length ∨ 65535 < outLen) :
    hkdfExpandLabel sha256 secret label context outLen =
      .error (.error .internal) := by
  rw [hkdfExpandLabel]
  by_cases hlengths : 255 < 6 + label.length ∨ 255 < context.length
  · rw [if_pos hlengths]
  · have hout : 65535 < outLen := by omega
    rw [if_neg hlengths, if_pos hout]

theorem hkdfExpandLabel_of_lt (hlabel : label.length < 119) :
    hkdfExpandLabel sha256 secret label context outLen =
        .error (.error .internal) ∨
      hkdfExpandLabel sha256 secret label context outLen =
        .ok ((sha256Hash sha256).expandLabel secret.toList label context
          outLen) := by
  by_cases hfits : 10 + label.length + context.length ≤ labelBufLen
  · by_cases hout : outLen ≤ hkdfMaxOutput
    · exact .inr (hkdfExpandLabel_of_fits sha256 secret hfits hout)
    · left
      have hnone : ∀ info, hkdfExpand sha256 secret info outLen = none :=
        fun _ => hkdfExpand_eq_none sha256 (Nat.not_le.mp hout)
      rw [hkdfExpandLabel]
      dsimp only
      rw [hnone]
      split
      · rfl
      · split
        · rfl
        · have hbuffer : ¬ labelBufLen ≤ 9 + label.length := by omega
          rw [if_neg hbuffer, if_neg (Nat.not_lt.mpr hfits)]
  · left
    have hbuffer : ¬ labelBufLen ≤ 9 + label.length := by
      change ¬ 128 ≤ 9 + label.length
      omega
    rw [hkdfExpandLabel, if_neg hbuffer, if_pos (Nat.not_le.mp hfits)]
    split
    · rfl
    · split
      · rfl
      · rfl

end Labels

/-- The function returns an error or the expansion of RFC 8446, without an
access out of range, unless the label has 119 to 249 octets and nothing else is
too long. -/
theorem hkdfExpandLabel_returns_iff (secret : Buf 32)
    (label context : List Byte) (outLen : ℕ) :
    ((∃ e, hkdfExpandLabelBuffered sha256 secret label context outLen =
          .error (.error e)) ∨
        hkdfExpandLabelBuffered sha256 secret label context outLen =
          .ok ((sha256Hash sha256).expandLabel secret.toList label context
            outLen)) ↔
      label.length < 119 ∨ 249 < label.length ∨ 255 < context.length ∨
        65535 < outLen := by
  rw [hkdfExpandLabelBuffered_eq]
  constructor
  · intro h
    by_contra hlong
    rw [hkdfExpandLabel_of_long sha256 secret (by omega) (by omega) (by omega)
      (by omega)] at h
    rcases h with ⟨e, h⟩ | h
    · cases h
    · cases h
  · rintro (hlabel | hlong)
    · rcases hkdfExpandLabel_of_lt sha256 secret hlabel with h | h
      · exact .inl ⟨_, h⟩
      · exact .inr h
    · exact .inl ⟨_, hkdfExpandLabel_of_too_long sha256 secret hlong⟩

/-- A label of 119 octets panics. -/
theorem hkdfExpandLabel_panics :
    hkdfExpandLabelBuffered (fun _ => Buf.zero) Buf.zero
      (List.replicate 119 0x61) [] 32 = .error .stuck := by
  rw [hkdfExpandLabelBuffered_eq]
  exact hkdfExpandLabel_of_long _ Buf.zero (by decide) (by decide)
    (by decide) (by decide)

end IsoLightK0
