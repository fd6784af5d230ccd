import IsoLightK0.Bus.Software
import IsoLightK0.Support.Runs

/-!
# An echo bus against a bounded queue

What an open echo bus is for is a queue of at most `SW_BUS_BUF` octets: a
write appends, a read takes from the front.  The two cursors of the bus only
grow, so a write is measured against the octets that were ever written and
not against those that wait.  The bus follows the queue exactly as long as
no write is refused for octets that were already read.
-/

namespace IsoLightK0

open Bytes Runs

section Queue

variable {α : Type*}

def dequeue (q : List α) (n : ℕ) : List α × List α :=
  (q.take n, q.drop n)

/-- Append `xs` if the queue then holds at most `capacity` elements. -/
def enqueue (capacity : ℕ) (q xs : List α) : Option (List α) :=
  if q.length + xs.length ≤ capacity then some (q ++ xs) else none

theorem enqueue_of_le {capacity : ℕ} {q xs : List α}
    (hfit : q.length + xs.length ≤ capacity) :
    enqueue capacity q xs = some (q ++ xs) :=
  if_pos hfit

theorem enqueue_of_gt {capacity : ℕ} {q xs : List α}
    (hfull : capacity < q.length + xs.length) :
    enqueue capacity q xs = none :=
  if_neg (Nat.not_le.mpr hfull)

end Queue

inductive BusAccess where
  | read (outLen : ℕ)
  | write (data : List Byte)
  deriving DecidableEq, Repr

/-- What the caller gets back: the delivered octets, the accepted count or
the error. -/
inductive BusReply where
  | delivered (octets : List Byte)
  | accepted (count : ℕ)
  | refused (e : BusError)
  deriving DecidableEq

namespace BusReply

def ofRead : Except BusError (List Byte) → BusReply
  | .ok octets => .delivered octets
  | .error e => .refused e

def ofWrite : Except BusError ℕ → BusReply
  | .ok count => .accepted count
  | .error e => .refused e

end BusReply

/-- One access to the queue that the bus stands for. -/
def queueAccess (q : List Byte) : BusAccess → BusReply × List Byte
  | .read outLen => (.delivered (dequeue q outLen).1, (dequeue q outLen).2)
  | .write data =>
    match enqueue swBusBuf q data with
    | some q' => (.accepted data.length, q')
    | none => (.refused .bufferTooSmall, q)

theorem queueAccess_write_of_le {q data : List Byte}
    (hfit : q.length + data.length ≤ swBusBuf) :
    queueAccess q (.write data) = (.accepted data.length, q ++ data) := by
  rw [queueAccess, enqueue_of_le hfit]

theorem queueAccess_write_of_gt {q data : List Byte}
    (hfull : swBusBuf < q.length + data.length) :
    queueAccess q (.write data) = (.refused .bufferTooSmall, q) := by
  rw [queueAccess, enqueue_of_gt hfull]

namespace SoftwareBus

def access (C : Crates) (b : SoftwareBus) :
    BusAccess → BusReply × SoftwareBus
  | .read outLen => (.ofRead (b.read outLen).1, (b.read outLen).2)
  | .write data => (.ofWrite (b.write C data).1, (b.write C data).2)

/-- The bus `b` is an open echo bus whose waiting octets are `q`. -/
structure Echoes (b : SoftwareBus) (q : List Byte) : Prop where
  isOpen : b.openState = true
  role : b.role = .echo
  unread : b.unread = q

/-- A write that the waiting octets leave room for also finds room behind
everything that was written since the bus was opened. -/
def RoomLeft (b : SoftwareBus) : BusAccess → Prop
  | .read _ => True
  | .write data =>
    b.unread.length + data.length ≤ swBusBuf →
      b.writeLen + data.length ≤ swBusBuf

variable {b : SoftwareBus} {q : List Byte} {C : Crates}

section Echo

variable (h : b.Echoes q)

include h

theorem Echoes.read (outLen : ℕ) :
    (b.read outLen).2.Echoes (q.drop outLen) where
  isOpen := by simp [SoftwareBus.read, h.isOpen]
  role := by simp [SoftwareBus.read, h.isOpen, h.role]
  unread := by rw [unread_read b outLen h.isOpen, h.unread]

theorem Echoes.length_le : q.length ≤ b.writeLen := by
  rw [← h.unread, length_unread]
  exact Nat.sub_le _ _

theorem Echoes.write {data : List Byte}
    (hfit : b.writeLen + data.length ≤ swBusBuf) :
    (b.write C data).1 = .ok data.length ∧
      (b.write C data).2.Echoes (q ++ data) := by
  have hroom : data.length ≤ swBusBuf - b.writeLen := by omega
  have hwrite : b.write C data = b.writeEcho data := by
    rw [write_of_open C b data h.isOpen, h.role]
  obtain ⟨hcount, hunread⟩ := writeEcho_of_le b hroom
  rw [hwrite]
  refine ⟨hcount, ?_, ?_, ?_⟩
  · simp [writeEcho, Nat.not_lt.mpr hroom, h.isOpen]
  · simp [writeEcho, Nat.not_lt.mpr hroom, h.role]
  · rw [hunread, h.unread]

theorem Echoes.write_refused {data : List Byte}
    (hfull : swBusBuf < b.writeLen + data.length) :
    b.write C data = (.error .bufferTooSmall, b) := by
  have hroom : swBusBuf - b.writeLen < data.length := by
    have hle := b.writeLen_le
    omega
  rw [write_of_open C b data h.isOpen, h.role]
  exact writeEcho_of_gt b hroom

theorem Echoes.access {a : BusAccess} (hroom : b.RoomLeft a) :
    (b.access C a).1 = (queueAccess q a).1 ∧
      (b.access C a).2.Echoes (queueAccess q a).2 := by
  cases a with
  | read outLen =>
    refine ⟨?_, h.read outLen⟩
    rw [SoftwareBus.access, read_fst b outLen h.isOpen, h.unread]
    rfl
  | write data =>
    rw [SoftwareBus.access]
    by_cases hfit : q.length + data.length ≤ swBusBuf
    · have hwrite := h.write (C := C) (hroom (h.unread ▸ hfit))
      rw [queueAccess_write_of_le hfit, hwrite.1]
      exact ⟨rfl, hwrite.2⟩
    · have hfull : swBusBuf < q.length + data.length := Nat.not_le.mp hfit
      have hlen := h.length_le
      rw [queueAccess_write_of_gt hfull, h.write_refused (by omega)]
      exact ⟨rfl, h⟩

theorem Echoes.access_ne {a : BusAccess} (hroom : ¬ b.RoomLeft a) :
    (b.access C a).1 ≠ (queueAccess q a).1 := by
  cases a with
  | read outLen => exact absurd trivial hroom
  | write data =>
    obtain ⟨hfit, hfull⟩ := Classical.not_imp.mp hroom
    rw [h.unread] at hfit
    rw [SoftwareBus.access, h.write_refused (Nat.not_le.mp hfull),
      queueAccess_write_of_le hfit]
    intro heq
    cases heq

theorem Echoes.replay_iff (accesses : List BusAccess) :
    (replay (SoftwareBus.access C) b accesses).1 =
        (replay queueAccess q accesses).1 ↔
      ∀ a earlier, a :: earlier <:+ accesses →
        (replay (SoftwareBus.access C) b earlier).2.RoomLeft a := by
  apply replay_fst_eq_iff h
  · intro b q a hEchoes hroom
    exact hEchoes.access hroom
  · intro b q a hEchoes hroom
    exact hEchoes.access_ne hroom

end Echo

/-- An open echo bus answers a sequence of reads and writes as the bounded
queue of its waiting octets does, exactly if each write that the waiting
octets leave room for also fits behind everything written so far. -/
theorem echo_refines_queue_iff (C : Crates) (b : SoftwareBus)
    (hopen : b.openState = true) (hrole : b.role = .echo)
    (accesses : List BusAccess) :
    (replay (SoftwareBus.access C) b accesses).1 =
        (replay queueAccess b.unread accesses).1 ↔
      ∀ a earlier, a :: earlier <:+ accesses →
        (replay (SoftwareBus.access C) b earlier).2.RoomLeft a :=
  Echoes.replay_iff ⟨hopen, hrole, rfl⟩ accesses

theorem echo_refines_queue_write_read :
    (opened .echo none).openState = true ∧
      (opened .echo none).role = .echo ∧
      (replay (SoftwareBus.access Crates.inert) (opened .echo none)
          [.read 2, .write [1, 2, 3]]).1 =
        (replay queueAccess (opened .echo none).unread
          [.read 2, .write [1, 2, 3]]).1 := by
  refine ⟨rfl, rfl, (echo_refines_queue_iff _ _ rfl rfl _).mpr ?_⟩
  intro a earlier ha
  rcases List.suffix_cons_iff.mp ha with heq | hsuffix
  · obtain ⟨rfl, rfl⟩ := List.cons.inj heq
    trivial
  · obtain ⟨rfl, rfl⟩ := List.cons.inj
      ((List.suffix_cons_iff.mp hsuffix).resolve_right fun h =>
        List.cons_ne_nil a earlier (List.suffix_nil.mp h))
    intro _
    decide

/-- Once 64 octets were written and read again, an empty bus refuses one
more octet. -/
theorem drained_echo_refuses_write :
    (replay (SoftwareBus.access Crates.inert) (opened .echo none)
        [.write [0], .read 64, .write (List.replicate 64 0)]).1 ≠
      (replay queueAccess (opened .echo none).unread
        [.write [0], .read 64, .write (List.replicate 64 0)]).1 := by
  have hstart : (opened .echo none).Echoes (opened .echo none).unread :=
    ⟨rfl, rfl, rfl⟩
  intro heq
  have hroom := (hstart.replay_iff _).mp heq _ _ (List.suffix_refl _)
  have hfull : (64 : ℕ) + 1 ≤ 64 := hroom (by rw [length_unread]; decide)
  exact absurd hfull (by decide)

end SoftwareBus

end IsoLightK0
