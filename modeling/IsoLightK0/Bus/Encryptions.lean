import IsoLightK0.Bus.Software
import IsoLightK0.Support.Nonces
import IsoLightK0.Support.Runs

/-!
# The encryptions of a software bus

A run of calls on one `SoftwareBus`, with the keys it draws and the encryptions
it performs.  The run is one of the abstract counter machine: opening the bus
draws a key or drops the old one, a write uses the next number, and nothing
else happens to the key.  Closing the bus keeps the key and its counter.
-/

namespace IsoLightK0

open Bytes Runs

/-- One call of `AES256GCM::encrypt`. -/
structure AeadCall where
  key : Buf 32
  nonce : Buf 12
  data : List Byte

/-- Nonce, ciphertext and tag of an encryption. -/
def AeadCall.record (C : Crates) (c : AeadCall) : List Byte :=
  c.nonce.toList ++ (C.aes256GcmEncrypt c.key c.nonce c.data).1.toList ++
    (C.aes256GcmEncrypt c.key c.nonce c.data).2.toList

/-- A call on the bus.  `open` finds the DRBG in any state. -/
inductive SoftwareCall
  | openBus (init : List Byte) (drbg : CapDrbg)
  | close
  | read (outLen : ℕ)
  | write (data : List Byte)

inductive BusAnswer
  | done (result : Except BusError Unit)
  | octets (result : Except BusError (List Byte))
  | count (result : Except BusError ℕ)

/-- The reply of a call, the key it drew and the encryptions it performed. -/
structure SoftwareTrace where
  reply : BusAnswer
  drawn : Option (Buf 32)
  encryptions : List AeadCall

namespace SoftwareBus

/-- The encryptions that `write` performs, by the branches of `write`. -/
def encryptions (b : SoftwareBus) (data : List Byte) : List AeadCall :=
  if b.openState then
    match b.role, b.aesState with
    | .aesGcm, some state =>
      if state.nonceCounter = BitVec.allOnes 64 then []
      else if data.length + gcmNonceSize + gcmTagSize > swBusBuf then []
      else [⟨state.key, gcmNonce (state.nonceCounter + 1), data⟩]
    | _, _ => []
  else []

/-- The key that a call of `open` drew. -/
def drawnKey : Except BusError Unit → SoftwareBus → Option (Buf 32)
  | .ok _, b => b.aesState.map SoftHsmAesGcmState.key
  | .error _, _ => none

def softwareStep (C : Crates) (b : SoftwareBus) :
    SoftwareCall → Option (SoftwareTrace × SoftwareBus)
  | .openBus init drbg =>
    (b.openBus init drbg).map fun (r, b, _) =>
      (⟨.done r, drawnKey r b, []⟩, b)
  | .close => some (⟨.done b.close.1, none, []⟩, b.close.2)
  | .read outLen =>
    some (⟨.octets (b.read outLen).1, none, []⟩, (b.read outLen).2)
  | .write data =>
    some (⟨.count (b.write C data).1, none, b.encryptions data⟩,
      (b.write C data).2)

/-! ## What a write does -/

variable {b : SoftwareBus} {C : Crates} {b' : SoftwareBus}
  {history : List (SoftwareCall × SoftwareTrace)}

theorem encryptions_of_role (hrole : b.role ≠ .aesGcm) (data : List Byte) :
    b.encryptions data = [] := by
  rw [encryptions]
  cases hb : b.role with
  | aesGcm => exact (hrole hb).elim
  | echo => exact ite_self []
  | blake3 => exact ite_self []

theorem encryptions_of_state {state : SoftHsmAesGcmState}
    (hopen : b.openState = true) (hrole : b.role = .aesGcm)
    (hstate : b.aesState = some state) (data : List Byte) :
    b.encryptions data =
      if state.nonceCounter ≠ BitVec.allOnes 64 ∧
          data.length + 28 ≤ swBusBuf then
        [⟨state.key, gcmNonce (state.nonceCounter + 1), data⟩]
      else [] := by
  have htotal : data.length + gcmNonceSize + gcmTagSize =
      data.length + 28 := rfl
  rw [encryptions, if_pos hopen, hrole, hstate]
  dsimp only
  rw [htotal]
  by_cases hcounter : state.nonceCounter = BitVec.allOnes 64
  · rw [if_pos hcounter, if_neg fun h => h.1 hcounter]
  · by_cases hfit : data.length + 28 ≤ swBusBuf
    · rw [if_neg hcounter, if_neg (Nat.not_lt.mpr hfit),
        if_pos ⟨hcounter, hfit⟩]
    · rw [if_neg hcounter, if_pos (Nat.not_le.mp hfit),
        if_neg fun h => hfit h.2]

theorem writeAesGcm_after (C : Crates) {data : List Byte}
    {state : SoftHsmAesGcmState} (hstate : b.aesState = some state)
    (hcounter : state.nonceCounter ≠ BitVec.allOnes 64)
    (hfit : data.length + 28 ≤ swBusBuf) :
    (b.writeAesGcm C data).2.openState = b.openState ∧
      (b.writeAesGcm C data).2.aesState =
        some { state with nonceCounter := state.nonceCounter + 1 } := by
  have hsmall : ¬ data.length + gcmNonceSize + gcmTagSize > swBusBuf :=
    Nat.not_lt.mpr hfit
  constructor
  · simp only [writeAesGcm, hstate, hcounter, if_false, hsmall, dite_false]
  · simp only [writeAesGcm, hstate, hcounter, if_false, hsmall, dite_false]

structure Encrypts (C : Crates) (b : SoftwareBus) (data : List Byte)
    (state : SoftHsmAesGcmState) : Prop where
  isOpen : b.openState = true
  role : b.role = .aesGcm
  aesState : b.aesState = some state
  counter : state.nonceCounter ≠ BitVec.allOnes 64
  encryptions : b.encryptions data =
    [⟨state.key, gcmNonce (state.nonceCounter + 1), data⟩]
  result : ∃ n, (b.write C data).1 = .ok n
  open_after : (b.write C data).2.openState = true
  state_after : (b.write C data).2.aesState =
    some { state with nonceCounter := state.nonceCounter + 1 }
  unread_after : (b.write C data).2.unread =
    gcmRecord C state.key (state.nonceCounter + 1) data

theorem write_cases (C : Crates) (b : SoftwareBus) (data : List Byte) :
    (b.encryptions data = [] ∧ ∃ e, b.write C data = (.error e, b)) ∨
      (b.encryptions data = [] ∧ b.role ≠ .aesGcm ∧
        (∃ n, (b.write C data).1 = .ok n) ∧
        (b.write C data).2.aesState = b.aesState) ∨
      ∃ state, b.Encrypts C data state := by
  by_cases hopen : b.openState = true
  · have hwrite := write_of_open C b data hopen
    cases hrole : b.role with
    | echo =>
      have hnone := encryptions_of_role (b := b) (by rw [hrole]; decide) data
      rw [hrole] at hwrite
      by_cases hfit : data.length ≤ swBusBuf - b.writeLen
      · refine .inr (.inl ⟨hnone, by decide, ?_, ?_⟩)
        · rw [hwrite]
          exact ⟨_, (writeEcho_of_le b hfit).1⟩
        · rw [hwrite]
          simp [writeEcho, Nat.not_lt.mpr hfit]
      · refine .inl ⟨hnone, .bufferTooSmall, ?_⟩
        rw [hwrite]
        exact writeEcho_of_gt b (Nat.not_le.mp hfit)
    | blake3 =>
      have hnone := encryptions_of_role (b := b) (by rw [hrole]; decide) data
      rw [hrole] at hwrite
      cases hdigest : C.blake3 data with
      | none =>
        refine .inl ⟨hnone, .internal, ?_⟩
        rw [hwrite]
        exact writeBlake3_of_none C b hdigest
      | some digest =>
        refine .inr (.inl ⟨hnone, by decide, ?_, ?_⟩)
        · rw [hwrite]
          exact ⟨_, (writeBlake3_of_some C b hdigest).1⟩
        · rw [hwrite]
          simp [writeBlake3, hdigest, swBusBuf, blake3OutLen]
    | aesGcm =>
      rw [hrole] at hwrite
      cases hstate : b.aesState with
      | none =>
        refine .inl ⟨?_, .internal, ?_⟩
        · rw [encryptions, hrole, hstate]
          exact ite_self []
        · rw [hwrite]
          simp [writeAesGcm, hstate]
      | some state =>
        have hlist := encryptions_of_state hopen hrole hstate data
        by_cases hroom : state.nonceCounter ≠ BitVec.allOnes 64 ∧
            data.length + 28 ≤ swBusBuf
        · rw [if_pos hroom] at hlist
          obtain ⟨hok, hunread⟩ := writeAesGcm_of_le C b hstate hroom.1 hroom.2
          obtain ⟨hopen', hstate'⟩ := writeAesGcm_after C hstate hroom.1 hroom.2
          refine .inr (.inr ⟨state, hopen, hrole, hstate, hroom.1,
            hlist, ?_, ?_, ?_, ?_⟩)
          · rw [hwrite]
            exact ⟨_, hok⟩
          · rw [hwrite]
            exact hopen'.trans hopen
          · rw [hwrite]
            exact hstate'
          · rw [hwrite]
            exact hunread
        · rw [if_neg hroom] at hlist
          obtain ⟨e, hrefused⟩ := writeAesGcm_of_not C b hstate hroom
          exact .inl ⟨hlist, e, hwrite.trans hrefused⟩
  · have hclosed : b.openState = false := Bool.eq_false_iff.mpr hopen
    refine .inl ⟨?_, .notOpen, write_of_closed C b data hclosed⟩
    rw [encryptions, if_neg hopen]

/-! ## The counter machine -/

def nonceNumber (nonce : Buf 12) : ℕ := (wordOfLe 64 (nonce.slice 0 8)).toNat

theorem nonceNumber_gcmNonce (counter : BitVec 64) :
    nonceNumber (gcmNonce counter) = counter.toNat := by
  have hoctets : (gcmNonce counter).slice 0 8 = wordToLe 8 counter :=
    Buf.slice_blit_of_length _ (by rw [wordToLe, length_toLe]; decide)
      (length_toLe 8 _)
  rw [nonceNumber, hoctets, wordOfLe_wordToLe counter (by decide)]

/-- The guard against the last value keeps the counter from wrapping. -/
theorem toNat_counter_succ {counter : BitVec 64}
    (h : counter ≠ BitVec.allOnes 64) :
    (counter + 1).toNat = counter.toNat + 1 := by
  have hlt := counter.isLt
  have hne : counter.toNat ≠ 2 ^ 64 - 1 := by
    intro heq
    apply h
    apply BitVec.eq_of_toNat_eq
    rw [heq, BitVec.toNat_allOnes]
  rw [BitVec.toNat_add]
  exact Nat.mod_eq_of_lt (by change counter.toNat + 1 < 2 ^ 64; omega)

/-- The key of the bus with the number of its last use. -/
def keyed (b : SoftwareBus) : Option (Buf 32 × ℕ) :=
  b.aesState.map fun state => (state.key, state.nonceCounter.toNat)

/-- A call as the counter machine sees it. -/
def nonceEvent : SoftwareCall × SoftwareTrace → Nonces.Event (Buf 32)
  | (.openBus _ _, ⟨.done (.ok _), some key, _⟩) => .draw key
  | (.openBus _ _, ⟨.done (.ok _), none, _⟩) => .drop
  | (_, ⟨_, _, c :: _⟩) => .use c.key (nonceNumber c.nonce)
  | _ => .idle

/-- A call is one step of the counter machine, with the key and the encryption
of its trace. -/
structure CountedBy (call : SoftwareCall) (trace : SoftwareTrace)
    (b b' : SoftwareBus) : Prop where
  step : Nonces.Step b.keyed (nonceEvent (call, trace)) b'.keyed
  draws : Nonces.draws [nonceEvent (call, trace)] = trace.drawn.toList
  uses : Nonces.uses [nonceEvent (call, trace)] =
    trace.encryptions.map fun c => (c.key, nonceNumber c.nonce)

theorem openBus_counted {init : List Byte} {drbg drbg' : CapDrbg}
    {r : Except BusError Unit} (h : b.openBus init drbg = some (r, b', drbg')) :
    CountedBy (.openBus init drbg) ⟨.done r, drawnKey r b', []⟩ b b' := by
  rcases openBus_cases h with
    ⟨e, rfl, rfl⟩ | ⟨rfl, -, -, role, aesState, rfl, haes⟩
  · exact ⟨.idle _, rfl, rfl⟩
  · rcases haes with ⟨-, key, rfl⟩ | ⟨-, rfl⟩
    · exact ⟨.draw _ key, rfl, rfl⟩
    · exact ⟨.drop _, rfl, rfl⟩

theorem aesState_close (b : SoftwareBus) :
    b.close.2.aesState = b.aesState := by
  unfold close
  split
  · rfl
  · rfl

theorem write_counted (C : Crates) (b : SoftwareBus) (data : List Byte) :
    CountedBy (.write data)
      ⟨.count (b.write C data).1, none, b.encryptions data⟩ b
      (b.write C data).2 := by
  rcases write_cases C b data with
    ⟨hnone, e, hrefused⟩ | ⟨hnone, -, -, hsame⟩ | ⟨state, henc⟩
  · rw [hnone, hrefused]
    exact ⟨.idle _, rfl, rfl⟩
  · have hkeyed : (b.write C data).2.keyed = b.keyed := by
      rw [keyed, hsame, keyed]
    rw [hnone]
    refine ⟨?_, rfl, rfl⟩
    rw [hkeyed]
    exact .idle _
  · have hsucc := toNat_counter_succ henc.counter
    rw [henc.encryptions]
    refine ⟨?_, rfl, rfl⟩
    rw [keyed, keyed, henc.aesState, henc.state_after]
    dsimp only [nonceEvent, Option.map_some]
    rw [nonceNumber_gcmNonce, hsucc]
    exact .use _ _

theorem softwareStep_counted {call : SoftwareCall} {trace : SoftwareTrace}
    (h : softwareStep C b call = some (trace, b')) :
    CountedBy call trace b b' := by
  cases call with
  | openBus init drbg =>
    obtain ⟨⟨r, b₁, drbg'⟩, hopen, heq⟩ := Option.map_eq_some_iff.mp h
    cases heq
    exact openBus_counted hopen
  | close =>
    cases h
    refine ⟨?_, rfl, rfl⟩
    rw [keyed, keyed, aesState_close]
    exact .idle _
  | read outLen =>
    cases h
    refine ⟨?_, rfl, rfl⟩
    rw [keyed, keyed, (b.read_snd outLen).2.2.2.2]
    exact .idle _
  | write data =>
    cases h
    exact write_counted C b data

theorem softwareStep_key {call : SoftwareCall} {trace : SoftwareTrace}
    (h : softwareStep C b call = some (trace, b'))
    (hkey : b'.aesState.map SoftHsmAesGcmState.key ≠
      b.aesState.map SoftHsmAesGcmState.key) :
    ∃ init drbg, call = .openBus init drbg ∧ trace.reply = .done (.ok ()) := by
  cases call with
  | openBus init drbg =>
    obtain ⟨⟨r, b₁, drbg'⟩, hopen, heq⟩ := Option.map_eq_some_iff.mp h
    cases heq
    rcases openBus_cases hopen with ⟨e, rfl, rfl⟩ | ⟨rfl, -⟩
    · exact (hkey rfl).elim
    · exact ⟨init, drbg, rfl, rfl⟩
  | close =>
    cases h
    exact (hkey (congrArg _ (aesState_close b))).elim
  | read outLen =>
    cases h
    exact (hkey (congrArg _ (b.read_snd outLen).2.2.2.2)).elim
  | write data =>
    cases h
    refine (hkey ?_).elim
    rcases write_cases C b data with
      ⟨-, e, hrefused⟩ | ⟨-, -, -, hsame⟩ | ⟨state, henc⟩
    · rw [hrefused]
    · rw [hsame]
    · rw [henc.state_after, henc.aesState]
      rfl

def drawnKeys (history : List (SoftwareCall × SoftwareTrace)) :
    List (Buf 32) :=
  history.flatMap fun event => event.2.drawn.toList

/-- The encryptions performed in a run, the latest first. -/
def performed (history : List (SoftwareCall × SoftwareTrace)) :
    List AeadCall :=
  history.flatMap fun event => event.2.encryptions

/-- A run on the bus is a run of the counter machine. -/
theorem run_counted (hrun : Run (softwareStep C) new history b) :
    Nonces.Steps (history.map nonceEvent) b.keyed ∧
      Nonces.draws (history.map nonceEvent) = drawnKeys history ∧
      Nonces.uses (history.map nonceEvent) =
        (performed history).map fun c => (c.key, nonceNumber c.nonce) := by
  refine hrun.history_invariant
    (I := fun history b => Nonces.Steps (history.map nonceEvent) b.keyed ∧
      Nonces.draws (history.map nonceEvent) = drawnKeys history ∧
      Nonces.uses (history.map nonceEvent) =
        (performed history).map fun c => (c.key, nonceNumber c.nonce)) ?_ ?_
  · exact ⟨.start, rfl, rfl⟩
  · rintro history b call trace b' - ⟨hsteps, hdraws, huses⟩ hstep
    have hcounted := softwareStep_counted hstep
    have hsplit : ∀ {α : Type} (f : Nonces.Event (Buf 32) → Option α),
        (((call, trace) :: history).map nonceEvent).filterMap f =
          [nonceEvent (call, trace)].filterMap f ++
            (history.map nonceEvent).filterMap f := by
      intro α f
      rw [List.map_cons, ← List.filterMap_append, List.singleton_append]
    refine ⟨.next hsteps hcounted.step, ?_, ?_⟩
    · rw [Nonces.draws, hsplit]
      exact congrArg₂ _ hcounted.draws hdraws
    · rw [Nonces.uses, hsplit]
      rw [performed, List.flatMap_cons, List.map_append]
      exact congrArg₂ _ hcounted.uses huses

/-- If no key is drawn twice, no nonce is used twice under one key. -/
theorem performed_nodup (hrun : Run (softwareStep C) new history b)
    (hkeys : (drawnKeys history).Nodup) :
    ((performed history).map fun c => (c.key, c.nonce)).Nodup := by
  obtain ⟨hsteps, hdraws, huses⟩ := run_counted hrun
  have hnodup := (hsteps.accounted (hdraws ▸ hkeys)).nodup
  rw [huses] at hnodup
  apply List.Nodup.of_map (fun pair => (pair.1, nonceNumber pair.2))
  rw [List.map_map]
  exact hnodup

/-! ## Reading a record back -/

def readMany (b : SoftwareBus) : List ℕ → List Byte
  | [] => []
  | outLen :: sizes =>
    (match (b.read outLen).1 with
      | .ok octets => octets
      | .error _ => []) ++ readMany (b.read outLen).2 sizes

theorem readMany_eq (hopen : b.openState = true) (sizes : List ℕ) :
    b.readMany sizes = b.unread.take sizes.sum := by
  induction sizes generalizing b with
  | nil => rfl
  | cons outLen sizes ih =>
    have hopen' : (b.read outLen).2.openState = true :=
      (b.read_snd outLen).1.trans hopen
    rw [readMany, read_fst b outLen hopen, ih hopen',
      unread_read b outLen hopen, List.sum_cons]
    exact (List.take_add ..).symm

/-- In every state that calls on one bus reach: under each key no nonce was used
twice, if no two calls of `open` drew the same key; a refused write performs no
encryption and leaves the bus as it was; only a successful `open` changes the
key; and after a successful write to an encryption bus, reads deliver nonce,
ciphertext and tag of the one encryption it performed. -/
theorem encryptions_disciplined (C : Crates) {b : SoftwareBus}
    {history : List (SoftwareCall × SoftwareTrace)}
    (hrun : Run (softwareStep C) new history b) :
    ((drawnKeys history).Nodup →
        ((performed history).map fun c => (c.key, c.nonce)).Nodup) ∧
      (∀ data e, (b.write C data).1 = .error e →
        b.encryptions data = [] ∧ (b.write C data).2 = b) ∧
      (∀ call trace b', softwareStep C b call = some (trace, b') →
        b'.aesState.map SoftHsmAesGcmState.key ≠
          b.aesState.map SoftHsmAesGcmState.key →
        ∃ init drbg, call = .openBus init drbg ∧
          trace.reply = .done (.ok ())) ∧
      ∀ data n, b.role = .aesGcm → (b.write C data).1 = .ok n →
        ∃ c, b.encryptions data = [c] ∧ c.data = data ∧
          ∀ sizes, (b.write C data).2.readMany sizes =
            (c.record C).take sizes.sum := by
  refine ⟨performed_nodup hrun, ?_, ?_, ?_⟩
  · intro data e he
    rcases write_cases C b data with
      ⟨hnone, e', hrefused⟩ | ⟨-, -, ⟨n, hok⟩, -⟩ | ⟨state, henc⟩
    · rw [hrefused]
      exact ⟨hnone, rfl⟩
    · rw [hok] at he
      cases he
    · obtain ⟨n, hok⟩ := henc.result
      rw [hok] at he
      cases he
  · intro call trace b' hstep hkey
    exact softwareStep_key hstep hkey
  · intro data n hrole hok
    rcases write_cases C b data with
      ⟨-, e, hrefused⟩ | ⟨-, hother, -⟩ | ⟨state, henc⟩
    · rw [hrefused] at hok
      cases hok
    · exact (hother hrole).elim
    · refine ⟨_, henc.encryptions, rfl, fun sizes => ?_⟩
      rw [readMany_eq henc.open_after, henc.unread_after]
      rfl

/-- An encryption bus that was opened and written to twice. -/
theorem encryptions_disciplined_after_writes :
    ∃ history b, Run (softwareStep Crates.inert) new history b ∧
      (drawnKeys history).length = 1 ∧ (performed history).length = 2 ∧
      ((performed history).map fun c => (c.key, c.nonce)).Nodup := by
  have hrun : Run (softwareStep Crates.inert) new _ _ :=
    Run.next (a := .write [4, 5]) (Run.next (a := .write [1, 2, 3])
      (Run.next (a := .openBus [2] (some [.generated fun _ => 7])) Run.start
        rfl) rfl) rfl
  refine ⟨_, _, hrun, rfl, rfl, ?_⟩
  exact (encryptions_disciplined Crates.inert hrun).1 (List.nodup_singleton _)

end SoftwareBus

end IsoLightK0
