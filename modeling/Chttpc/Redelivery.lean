import Mathlib.Data.List.Infix

/-!
# Taking a stream ahead of its source

A source offers the elements of a stream in chunks, and offers a position again
until the receiver settles it.  The receiver may take elements of a chunk it does
not settle; it is then ahead of the source, and has to leave those elements out
when they are offered again.

A `Receiver` moves in two ways only: it takes the next elements behind those it
has (`advance`), or it settles elements it has taken (`settle`).  As long as it
does, it has taken exactly the part of the stream up to its position
(`Faithful`): none lost, none repeated, none out of order.
-/

namespace Chttpc.Redelivery

structure Receiver (α : Type) where
  stream : List α
  /-- The number of elements the source will not offer again. -/
  settled : Nat
  /-- The number of elements taken but not settled. -/
  ahead : Nat
  taken : List α

namespace Receiver
variable {α : Type} {r : Receiver α} {n : Nat}

/-- Takes the next `n` elements. -/
def advance (n : Nat) (r : Receiver α) : Receiver α :=
  { r with
    ahead := r.ahead + n
    taken := r.taken ++ (r.stream.drop (r.settled + r.ahead)).take n }

/-- Settles `n` elements. -/
def settle (n : Nat) (r : Receiver α) : Receiver α :=
  { r with settled := r.settled + n, ahead := r.ahead - n }

/-- What has been taken is the stream up to the position of the receiver. -/
structure Faithful (r : Receiver α) : Prop where
  inside : r.settled + r.ahead ≤ r.stream.length
  taken : r.taken = r.stream.take (r.settled + r.ahead)

theorem Faithful.advance (h : r.Faithful) (hn : r.settled + r.ahead + n ≤ r.stream.length) :
    (r.advance n).Faithful where
  inside := by
    show r.settled + (r.ahead + n) ≤ r.stream.length
    omega
  taken := by
    show r.taken ++ _ = r.stream.take (r.settled + (r.ahead + n))
    rw [h.taken, ← Nat.add_assoc]
    exact List.take_add.symm

theorem Faithful.settle (h : r.Faithful) (hn : n ≤ r.ahead) : (r.settle n).Faithful := by
  have hposition : r.settled + n + (r.ahead - n) = r.settled + r.ahead := by omega
  refine ⟨?_, ?_⟩
  · show r.settled + n + (r.ahead - n) ≤ r.stream.length
    rw [hposition]
    exact h.inside
  · show r.taken = r.stream.take (r.settled + n + (r.ahead - n))
    rw [hposition]
    exact h.taken

theorem Faithful.taken_prefix (h : r.Faithful) : r.taken <+: r.stream := by
  rw [h.taken]
  exact List.take_prefix _ _

theorem Faithful.length_taken (h : r.Faithful) : r.taken.length = r.settled + r.ahead := by
  rw [h.taken, List.length_take, Nat.min_eq_left h.inside]

end Receiver

end Chttpc.Redelivery
