/-! # Loops that collect

A loop over a list that holds what it has made last first, and turns it round at the end, maps the
list.
-/

namespace Relay

theorem loop_eq_map {α β : Type} {f : α → β} {loop : List β → List α → List β}
    (ends : ∀ made, loop made [] = made.reverse)
    (goes : ∀ made item rest, loop made (item :: rest) = loop (f item :: made) rest)
    (made : List β) (items : List α) : loop made items = made.reverse ++ items.map f := by
  induction items generalizing made with
  | nil => rw [ends, List.map_nil, List.append_nil]
  | cons item rest ih =>
    rw [goes, ih, List.reverse_cons, List.append_assoc, List.singleton_append, List.map_cons]

end Relay
