import IsoLightK0.Support.Runs
import IsoLightK0.Tls.Frame
import Mathlib.Data.Fin.Tuple.Basic
import Mathlib.Data.Finset.Card
import Mathlib.Data.Fintype.Basic

/-!
# The slots of a loopback handshake

`run_loopback` takes two slots of the pool and gives them back when the
handshake fails.  When there is only one free slot it has already taken that
one, and marks it free instead of emptying it.  `alloc_slot` looks for empty
slots, so the slot is lost, and failed calls change the pool exactly if they
find one free slot.
-/

namespace IsoLightK0

open Bytes Runs Triples TlsProg

theorem connIdx?_handle (i : ConnIdx) :
    connIdx? (ConnIdx.handle i) = some i := by
  revert i
  decide

namespace TlsPool

def withPair (pool : TlsPool) (i j : ConnIdx) (c d : TlsConnection) :
    TlsPool :=
  Function.update (Function.update pool i (some c)) j (some d)

def freeSlots (pool : TlsPool) : Finset ConnIdx :=
  Finset.univ.filter fun i => (pool i).isNone

theorem mem_freeSlots (pool : TlsPool) (i : ConnIdx) :
    i ∈ pool.freeSlots ↔ pool i = none := by
  rw [freeSlots, Finset.mem_filter, Option.isNone_iff_eq_none]
  exact and_iff_right (Finset.mem_univ i)

variable {pool : TlsPool} {i j : ConnIdx} {c d : TlsConnection}

theorem freeSlots_eq_empty (h : ∀ i, pool i ≠ none) :
    pool.freeSlots = ∅ := by
  apply Finset.eq_empty_of_forall_notMem
  intro i hmem
  exact h i ((mem_freeSlots _ _).mp hmem)

theorem freeSlots_eq_singleton (hi : pool i = none)
    (hothers : ∀ k, k ≠ i → pool k ≠ none) : pool.freeSlots = {i} := by
  ext k
  rw [mem_freeSlots, Finset.mem_singleton]
  constructor
  · intro hk
    by_contra hki
    exact hothers k hki hk
  · rintro rfl
    exact hi

theorem withPair_left (hne : i ≠ j) : pool.withPair i j c d i = some c := by
  rw [withPair, Function.update_of_ne hne, Function.update_self]

theorem withPair_right : pool.withPair i j c d j = some d := by
  rw [withPair, Function.update_self]

theorem withPair_of_ne {k : ConnIdx} (hi : k ≠ i) (hj : k ≠ j) :
    pool.withPair i j c d k = pool k := by
  rw [withPair, Function.update_of_ne hj, Function.update_of_ne hi]

theorem update_withPair_left (hne : i ≠ j) (c' : TlsConnection) :
    Function.update (pool.withPair i j c d) i (some c') =
      pool.withPair i j c' d := by
  rw [withPair, Function.update_comm hne.symm, Function.update_idem]
  rfl

theorem update_withPair_right (d' : TlsConnection) :
    Function.update (pool.withPair i j c d) j (some d') =
      pool.withPair i j c d' :=
  Function.update_idem _ _ _

end TlsPool

section Slots

variable {α : Type} {s : TlsState} {i : ConnIdx} {c : TlsConnection}

theorem eval_slot (hc : s.pool i = some c) :
    (slot (ConnIdx.handle i)).eval s = (.ok (i, c), s) := by
  unfold slot
  rw [Prog.eval_get_bind, connIdx?_handle]
  dsimp only
  rw [hc]
  rfl

theorem eval_withSlot (hc : s.pool i = some c)
    (f : TlsConnection → Except TlsStop (α × TlsConnection)) :
    (withSlot (ConnIdx.handle i) f).eval s =
      match f c with
      | .error e => (.error e, s)
      | .ok (a, c') =>
        (.ok a, { s with pool := Function.update s.pool i (some c') }) := by
  unfold withSlot
  rw [Prog.eval_bind, eval_slot hc]
  dsimp only
  rw [Prog.eval_bind, eval_compute]
  cases f c with
  | error e => rfl
  | ok result => rfl

theorem eval_updateSlot (hc : s.pool i = some c)
    (f : TlsConnection → TlsConnection) :
    (updateSlot (ConnIdx.handle i) f).eval s =
      (.ok (), { s with pool := Function.update s.pool i (some (f c)) }) := by
  rw [updateSlot, eval_withSlot hc]

theorem eval_close (s : TlsState) (i : ConnIdx) :
    (close (ConnIdx.handle i)).eval s =
      (.ok (), { s with pool := Function.update s.pool i none }) := by
  rw [close, connIdx?_handle]
  rfl

theorem eval_attempt (x : TlsProg α) (s : TlsState) :
    x.attempt.eval s = (.ok (x.eval s).1, (x.eval s).2) := rfl

theorem allocSlot_cases (s : TlsState) :
    ((∀ i, s.pool i ≠ none) ∧
      allocSlot.eval s = (.error (.error .poolFull), s)) ∨
    ∃ i, s.pool i = none ∧
      allocSlot.eval s =
        (.ok (ConnIdx.handle i),
          { s with pool := Function.update s.pool i (some .empty) }) := by
  unfold allocSlot
  rw [Prog.eval_get_bind, ← Fin.find?_eq_find?_finRange]
  cases hfind : Fin.find? fun i => (s.pool i).isNone with
  | none =>
    rw [Fin.find?_eq_none_iff] at hfind
    refine .inl ⟨fun i hnone => ?_, rfl⟩
    simpa [hnone] using hfind i
  | some i =>
    rw [Fin.find?_eq_some_iff] at hfind
    exact .inr ⟨i, Option.isNone_iff_eq_none.mp hfind.1, rfl⟩

end Slots

/-! ## `run_loopback` -/

/-- A slot as `run_loopback` hands it to the handshake. -/
def TlsConnection.opened (side : TlsSide) (profile : TlsProfile)
    (policy : KexPolicy) (suite : CipherSuite) (pskId : PskId) :
    TlsConnection :=
  TlsConnection.empty.openAs side profile policy suite pskId

/-- What `run_loopback` makes of the outcome of the handshake. -/
def afterHandshake (i j : ConnIdx) :
    Except TlsStop Unit × TlsState →
      Except TlsStop (ConnHandle × ConnHandle) × TlsState
  | (.ok (), s) => (.ok (ConnIdx.handle i, ConnIdx.handle j), s)
  | (.error e, s) =>
    (.error e,
      { s with
        pool := Function.update (Function.update s.pool i none) j none })

section Outcome

variable (T : TlsCrates) (clientHsm serverHsm : HsmDriver)
  (profile : TlsProfile) (policy : KexPolicy) (suite : CipherSuite)
  (pskId : PskId)

theorem eval_openAs (s : TlsState) (pool : TlsPool) (k : ConnIdx)
    (side : TlsSide) :
    (updateSlot (ConnIdx.handle k) fun c =>
        c.openAs side profile policy suite pskId).eval
      { s with pool := Function.update pool k (some .empty) } =
    (.ok (),
      { s with
        pool := Function.update pool k
          (some (.opened side profile policy suite pskId)) }) := by
  rw [eval_updateSlot (c := .empty) (Function.update_self k _ _),
    Function.update_idem]
  rfl

/-- With no free slot nothing happens; with one, the slot is taken and lost;
with two, the handshake runs on them. -/
theorem runLoopbackBy_cases (s : TlsState) :
    ((∀ i, s.pool i ≠ none) ∧
      (runLoopbackBy T clientHsm serverHsm profile policy suite pskId).eval s =
        (.error (.error .poolFull), s)) ∨
    (∃ i c, s.pool i = none ∧ (∀ k, k ≠ i → s.pool k ≠ none) ∧
      (runLoopbackBy T clientHsm serverHsm profile policy suite pskId).eval s =
        (.error (.error .poolFull),
          { s with pool := Function.update s.pool i (some c) })) ∨
    ∃ i j, i ≠ j ∧ s.pool i = none ∧ s.pool j = none ∧
      (runLoopbackBy T clientHsm serverHsm profile policy suite pskId).eval s =
        afterHandshake i j
          ((doHandshakeBy T clientHsm serverHsm (ConnIdx.handle i)
              (ConnIdx.handle j) policy suite pskId).eval
            { s with
              pool := s.pool.withPair i j
                (.opened .client profile policy suite pskId)
                (.opened .server profile policy suite pskId) }) := by
  have hprofile : (checkProfile profile).eval s = (.ok (), s) := by
    cases profile <;> rfl
  unfold runLoopbackBy
  rw [Prog.eval_bind, hprofile]
  dsimp only
  rw [Prog.eval_bind]
  rcases allocSlot_cases s with ⟨hfull, halloc⟩ | ⟨i, hi, halloc⟩
  · rw [halloc]
    exact .inl ⟨hfull, rfl⟩
  rw [halloc]
  dsimp only
  rw [Prog.eval_bind, eval_openAs]
  dsimp only
  rw [Prog.eval_bind, eval_attempt]
  rcases allocSlot_cases { s with
      pool := Function.update s.pool i
        (some (.opened .client profile policy suite pskId)) } with
    ⟨hfull, halloc₂⟩ | ⟨j, hj, halloc₂⟩
  · -- the second slot is missing
    rw [halloc₂]
    dsimp only
    rw [Prog.eval_bind, eval_updateSlot (Function.update_self i _ _),
      Function.update_idem]
    refine .inr (.inl ⟨i, _, hi, ?_, rfl⟩)
    intro k hk
    have hsome := hfull k
    dsimp only at hsome
    rwa [Function.update_of_ne hk] at hsome
  · dsimp only at hj
    have hne : i ≠ j := by
      rintro rfl
      rw [Function.update_self] at hj
      cases hj
    rw [Function.update_of_ne hne.symm] at hj
    rw [halloc₂]
    dsimp only
    rw [Prog.eval_bind, eval_openAs]
    dsimp only
    rw [Prog.eval_bind, eval_attempt]
    refine .inr (.inr ⟨i, j, hne, hi, hj, ?_⟩)
    dsimp only
    rw [← TlsPool.withPair]
    rcases (doHandshakeBy T clientHsm serverHsm (ConnIdx.handle i)
      (ConnIdx.handle j) policy suite pskId).eval _ with ⟨e | u, s'⟩
    · dsimp only
      rw [Prog.eval_bind, eval_attempt, eval_close]
      dsimp only
      rw [Prog.eval_bind, eval_attempt, eval_close]
      rfl
    · rfl

/-- Outside of two slots the pool is `pool`. -/
def SameOutside (pool : TlsPool) (i j : ConnIdx) (s : TlsState) : Prop :=
  ∀ k, k ≠ i → k ≠ j → s.pool k = pool k

/-- The handshake leaves the other slots alone, however it ends. -/
theorem sameOutside_doHandshakeBy (pool : TlsPool) (i j : ConnIdx) :
    Keeps (SameOutside pool i j)
      (doHandshakeBy T clientHsm serverHsm (ConnIdx.handle i)
        (ConnIdx.handle j) policy suite pskId) := by
  apply keeps_doHandshakeBy
  · intro s h k c c' hs hh hidx _ _ l hi hj
    have hk : l ≠ k := by
      rintro rfl
      rcases hh with rfl | rfl
      · rw [connIdx?_handle] at hidx
        exact hi (Option.some.inj hidx).symm
      · rw [connIdx?_handle] at hidx
        exact hj (Option.some.inj hidx).symm
    exact (Function.update_of_ne hk _ _).trans (hs l hi hj)
  · intro s drbg hs
    exact hs

theorem update_none_eq {pool : TlsPool} {i j : ConnIdx} {s : TlsState}
    (hs : SameOutside pool i j s) (hi : pool i = none) (hj : pool j = none) :
    Function.update (Function.update s.pool i none) j none = pool := by
  funext k
  by_cases hkj : k = j
  · rw [hkj, Function.update_self, hj]
  · rw [Function.update_of_ne hkj]
    by_cases hki : k = i
    · rw [hki, Function.update_self, hi]
    · rw [Function.update_of_ne hki]
      exact hs k hki hkj

theorem runLoopbackBy_error {s s' : TlsState} {e : TlsStop}
    (h : (runLoopbackBy T clientHsm serverHsm profile policy suite
      pskId).eval s = (.error e, s')) :
    (s.pool.freeSlots.card ≠ 1 ∧ s'.pool = s.pool) ∨
      (s.pool.freeSlots.card = 1 ∧ s'.pool.freeSlots = ∅) := by
  rcases runLoopbackBy_cases T clientHsm serverHsm profile policy suite pskId
    s with ⟨hfull, heval⟩ | ⟨i, c, hi, hothers, heval⟩ |
      ⟨i, j, hne, hi, hj, heval⟩
  · rw [heval] at h
    cases h
    refine .inl ⟨?_, rfl⟩
    rw [TlsPool.freeSlots_eq_empty hfull]
    decide
  · rw [heval] at h
    cases h
    refine .inr ⟨Finset.card_eq_one.mpr
      ⟨i, TlsPool.freeSlots_eq_singleton hi hothers⟩, ?_⟩
    apply TlsPool.freeSlots_eq_empty
    intro k
    dsimp only
    by_cases hki : k = i
    · rw [hki, Function.update_self]
      exact nofun
    · rw [Function.update_of_ne hki]
      exact hothers k hki
  · rw [heval] at h
    have htwo : 1 < s.pool.freeSlots.card :=
      Finset.one_lt_card.mpr
        ⟨i, (TlsPool.mem_freeSlots _ _).mpr hi, j,
          (TlsPool.mem_freeSlots _ _).mpr hj, hne⟩
    refine .inl ⟨htwo.ne', ?_⟩
    have houtside := sameOutside_doHandshakeBy T clientHsm serverHsm policy
      suite pskId s.pool i j
      { s with
        pool := s.pool.withPair i j
          (.opened .client profile policy suite pskId)
          (.opened .server profile policy suite pskId) }
      fun k hki hkj => TlsPool.withPair_of_ne hki hkj
    rcases hshake : (doHandshakeBy T clientHsm serverHsm (ConnIdx.handle i)
      (ConnIdx.handle j) policy suite pskId).eval _ with ⟨e' | u, s₁⟩
    · rw [hshake] at h houtside
      cases h
      exact update_none_eq houtside hi hj
    · rw [hshake] at h
      cases h

end Outcome

/-! ## Runs of failed calls -/

/-- The arguments of a `run_loopback` call, the answers of its driver and the
DRBG as it finds it. -/
structure LoopbackCall where
  clientHsm : HsmDriver
  serverHsm : HsmDriver
  profile : TlsProfile
  policy : KexPolicy
  suite : CipherSuite
  pskId : PskId
  drbg : CapDrbg

def failStep (T : TlsCrates) (pool : TlsPool) (call : LoopbackCall) :
    Option (TlsError × TlsPool) :=
  match (runLoopbackBy T call.clientHsm call.serverHsm call.profile
      call.policy call.suite call.pskId).eval ⟨pool, call.drbg⟩ with
  | (.error (.error e), s') => some (e, s'.pool)
  | _ => none

theorem failStep_cases {T : TlsCrates} {pool pool' : TlsPool}
    {call : LoopbackCall} {e : TlsError}
    (h : failStep T pool call = some (e, pool')) :
    (pool.freeSlots.card ≠ 1 ∧ pool' = pool) ∨
      (pool.freeSlots.card = 1 ∧ pool'.freeSlots = ∅) := by
  unfold failStep at h
  split at h
  case h_1 e' s' heval =>
    cases h
    exact runLoopbackBy_error T _ _ _ _ _ _ heval
  · cases h

/-- Any number of failed calls, each with its own arguments, driver and DRBG,
leaves the pool exactly as it was, unless the pool had exactly one free
slot. -/
theorem failed_loopbacks_keep_pool_iff (T : TlsCrates) {pool pool' : TlsPool}
    {history : List (LoopbackCall × TlsError)}
    (hrun : Run (failStep T) pool history pool') :
    pool' = pool ↔ history = [] ∨ pool.freeSlots.card ≠ 1 := by
  have hinv : (history = [] ∨ pool.freeSlots.card ≠ 1 → pool' = pool) ∧
      (history ≠ [] → pool.freeSlots.card = 1 → pool'.freeSlots = ∅) := by
    refine hrun.history_invariant
      (I := fun history pool' =>
        (history = [] ∨ pool.freeSlots.card ≠ 1 → pool' = pool) ∧
          (history ≠ [] → pool.freeSlots.card = 1 → pool'.freeSlots = ∅))
      ?_ ?_
    · exact ⟨fun _ => rfl, fun hne => (hne rfl).elim⟩
    · rintro history pool₁ call e pool₂ - ⟨hsame, hlost⟩ hstep
      constructor
      · rintro (hnil | hcard)
        · cases hnil
        · obtain rfl := hsame (.inr hcard)
          rcases failStep_cases hstep with ⟨-, hkept⟩ | ⟨hone, -⟩
          · exact hkept
          · exact (hcard hone).elim
      · intro _ hcard
        rcases failStep_cases hstep with ⟨hnot, hkept⟩ | ⟨-, hnone⟩
        · rw [hkept]
          by_cases hnil : history = []
          · rw [hsame (.inl hnil)] at hnot
            exact (hnot hcard).elim
          · exact hlost hnil hcard
        · exact hnone
  constructor
  · intro heq
    by_contra hnot
    rw [not_or, not_not] at hnot
    have hnone := hinv.2 hnot.1 hnot.2
    rw [heq] at hnone
    rw [hnone] at hnot
    exact absurd hnot.2 (by decide)
  · exact hinv.1

def drawlessCall : LoopbackCall where
  clientHsm := .accepting
  serverHsm := .accepting
  profile := .closed
  policy := .hybrid
  suite := .aes256GcmSha256
  pskId := Buf.zero
  drbg := none

theorem failed_loopbacks_keep_pool_iff_drawlessCall :
    ∃ history pool', Run (failStep .constant) .empty history pool' ∧
      history ≠ [] ∧ pool' = .empty := by
  obtain ⟨⟨e, pool'⟩, hstep⟩ := Option.isSome_iff_exists.mp
    (show (failStep .constant .empty drawlessCall).isSome = true by
      decide +kernel)
  have hrun : Run (failStep .constant) .empty [(drawlessCall, e)] pool' :=
    Run.start.next hstep
  refine ⟨_, pool', hrun, by simp, ?_⟩
  exact (failed_loopbacks_keep_pool_iff .constant hrun).mpr (.inr (by decide))

def TlsPool.lastFree : TlsPool := fun i =>
  if i.val = 3 then none else some .empty

/-- A call that finds one free slot fails and takes it. -/
theorem failed_loopback_takes_last_slot :
    ∃ e pool', failStep .constant .lastFree drawlessCall = some (e, pool') ∧
      pool' ≠ .lastFree ∧ pool'.freeSlots = ∅ := by
  obtain ⟨⟨e, pool'⟩, hstep⟩ := Option.isSome_iff_exists.mp
    (show (failStep .constant .lastFree drawlessCall).isSome = true by
      decide +kernel)
  rcases failStep_cases hstep with ⟨hnot, -⟩ | ⟨hone, hnone⟩
  · exact absurd (by decide) hnot
  · refine ⟨e, pool', hstep, ?_, hnone⟩
    rintro rfl
    rw [hnone] at hone
    exact absurd hone (by decide)

end IsoLightK0
