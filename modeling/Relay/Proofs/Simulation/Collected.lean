import Relay.Simulation.Scenario
import Relay.Proofs.Payload.Called

/-! # Collecting the nodes that are called

The walk over the calls of requests notes a name where it comes to it and skips the names that it
has noted before, with one set of them for all requests. So it might as well have written down every
name first, and then have kept those that do not occur earlier, `collectNodes_eq`. What is kept is
listed in the order of the first occurrences.
-/

namespace Relay

/-- The names of the nodes that a root request calls, in order. -/
def RootRequest.calledNodes (r : RootRequest) : List String :=
  (Action.call {} r.call r.actions).calledNodes

/-- The items of a list that do not occur earlier in it, after those that were found before, which
are held last first. -/
def firstOccurrences (found : List String) : List String → List String
  | [] => found.reverse
  | item :: rest =>
    if item ∈ found then firstOccurrences found rest else firstOccurrences (item :: found) rest

/-! ## The walk -/

namespace Visited

theorem call_eq (visited : Visited) (c : Call) :
    visited.call c = (if c.origin.isNone then c.node.toList else []).foldl note visited := by
  rw [call]
  cases c.origin with
  | some address => rfl
  | none => cases c.node <;> rfl

/-- Names that are noted one after another are the first occurrences among them. -/
theorem names_foldl_note (names found : List String) :
    (names.foldl note ⟨found, found⟩).names.reverse = firstOccurrences found names := by
  induction names generalizing found with
  | nil => rfl
  | cons name rest ih =>
    rw [List.foldl_cons, note, firstOccurrences]
    dsimp only
    split
    · exact ih found
    · exact ih (name :: found)

end Visited

mutual

/-- A visit notes the names that an action calls. -/
theorem Action.visit_eq (visited : Visited) (a : Action) :
    a.visit visited = a.calledNodes.foldl Visited.note visited := by
  cases a with
  | step mode s => rfl
  | call mode c shipped =>
    rw [Action.visit, Action.calledNodes, List.foldl_append, visited.call_eq]
    exact visitActions_eq _ shipped
  | group mode members => exact visitActions_eq visited members

theorem visitActions_eq (visited : Visited) (actions : List Action) :
    visitActions visited actions = (calledNodesOf actions).foldl Visited.note visited := by
  cases actions with
  | nil => rfl
  | cons a rest =>
    rw [visitActions, calledNodesOf, List.foldl_append, ← a.visit_eq visited]
    exact visitActions_eq _ rest

end

theorem RootRequest.visit_eq (visited : Visited) (r : RootRequest) :
    r.visit visited = r.calledNodes.foldl Visited.note visited :=
  Action.visit_eq visited (.call {} r.call r.actions)

/-- The walk finds the names that the requests call, each at its first occurrence. -/
theorem collectNodes_eq (requests : List RootRequest) :
    collectNodes requests = firstOccurrences [] (requests.flatMap RootRequest.calledNodes) := by
  have walk : requests.foldl RootRequest.visit {} =
      (requests.flatMap RootRequest.calledNodes).foldl Visited.note {} := by
    rw [List.foldl_flatMap]
    exact congrArg (fun visit => requests.foldl visit {})
      (funext fun visited => funext fun r => r.visit_eq visited)
  rw [collectNodes, walk]
  exact Visited.names_foldl_note _ []

/-! ## First occurrences -/

theorem mem_firstOccurrences {found names : List String} {name : String}
    (listed : name ∈ found ∨ name ∈ names) : name ∈ firstOccurrences found names := by
  induction names generalizing found with
  | nil => exact List.mem_reverse.2 (listed.resolve_right List.not_mem_nil)
  | cons head rest ih =>
    rw [firstOccurrences]
    split
    · rename_i known
      apply ih
      rcases listed with before | here
      · exact .inl before
      · rcases List.mem_cons.1 here with rfl | later
        · exact .inl known
        · exact .inr later
    · apply ih
      rcases listed with before | here
      · exact .inl (List.mem_cons_of_mem head before)
      · rcases List.mem_cons.1 here with rfl | later
        · exact .inl List.mem_cons_self
        · exact .inr later

/-- In a list, the first item occurs before the second one does. -/
def Precedes (names : List String) (a b : String) : Prop :=
  ∃ before after, names = before ++ a :: after ∧ b ∉ before ∧ b ≠ a

private theorem precedes_firstOccurrences {seen found names : List String}
    (same : ∀ name, name ∈ found ↔ name ∈ seen)
    (ordered : found.reverse.Pairwise (Precedes (seen ++ names))) :
    (firstOccurrences found names).Pairwise (Precedes (seen ++ names)) := by
  induction names generalizing seen found with
  | nil => exact ordered
  | cons head rest ih =>
    have moved : seen ++ head :: rest = (seen ++ [head]) ++ rest := by
      rw [List.append_assoc, List.singleton_append]
    rw [firstOccurrences]
    split
    · rename_i known
      rw [moved] at ordered ⊢
      apply ih _ ordered
      intro name
      rw [List.mem_append, List.mem_singleton, ← same name]
      constructor
      · exact .inl
      · rintro (member | rfl)
        · exact member
        · exact known
    · rename_i unknown
      have last : ∀ name ∈ found.reverse, Precedes (seen ++ head :: rest) name head := by
        intro name member
        have there := (same name).1 (List.mem_reverse.1 member)
        obtain ⟨before, after, rfl⟩ := List.append_of_mem there
        refine ⟨before, after ++ head :: rest, by simp, ?_, ?_⟩
        · intro early
          exact unknown ((same head).2 (List.mem_append_left _ early))
        · rintro rfl
          exact unknown (List.mem_reverse.1 member)
      rw [moved] at ordered last ⊢
      apply ih
      · intro name
        rw [List.mem_cons, List.mem_append, List.mem_singleton, ← same name, or_comm]
      · rw [List.reverse_cons, List.pairwise_append]
        refine ⟨ordered, List.pairwise_singleton _ _, ?_⟩
        intro name member other single
        obtain rfl := List.mem_singleton.1 single
        exact last name member

/-- First occurrences are listed in their order. -/
theorem firstOccurrences_pairwise (names : List String) :
    (firstOccurrences [] names).Pairwise (Precedes names) :=
  @precedes_firstOccurrences [] [] names (fun _ => Iff.rfl) .nil

theorem of_mem_firstOccurrences {found names : List String} {name : String}
    (member : name ∈ firstOccurrences found names) : name ∈ found ∨ name ∈ names := by
  induction names generalizing found with
  | nil => exact .inl (List.mem_reverse.1 member)
  | cons head rest ih =>
    rw [firstOccurrences] at member
    rw [List.mem_cons]
    split at member
    · exact (ih member).imp_right .inr
    · rcases ih member with known | later
      · rcases List.mem_cons.1 known with rfl | known
        · exact .inr (.inl rfl)
        · exact .inl known
      · exact .inr (.inr later)

end Relay
