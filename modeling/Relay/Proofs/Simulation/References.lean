import Relay.Proofs.Simulation.Found

/-! # Nodes in the order in which they are called

The actions below a list lie at positions: the number of an action in the list, then the numbers of
nested actions on the way down. Positions are ordered like words, so an action comes before what is
nested in it and behind everything in the actions before it. Collecting the nodes that requests call
by name lists each of them once, in the order of their first positions, and a scenario is asked for
them in that order, `referencedNodes_ordered`.
-/

namespace Relay

namespace Action

/-- What passes from the nested actions of every action to the action itself holds of all. -/
theorem children_induction {motive : Action → Prop}
    (up : ∀ a : Action, (∀ b ∈ a.children, motive b) → motive a) (a : Action) : motive a := by
  apply up
  intro b member
  have smaller : sizeOf b < sizeOf a := by
    have inside := List.sizeOf_lt_of_mem member
    cases a <;> simp only [children, List.not_mem_nil] at member inside <;> simp <;> omega
  exact children_induction up b
termination_by a

/-- The action at a position below another one. -/
def at? : Action → List Nat → Option Action
  | a, [] => some a
  | a, k :: path => a.children[k]?.bind fun b => b.at? path

/-- The action at a position in a list. -/
def listAt? (actions : List Action) : List Nat → Option Action
  | [] => none
  | k :: path => actions[k]?.bind fun a => a.at? path

/-- The action is a call of the node by its name. An origin would take precedence. -/
inductive Names : Action → String → Prop where
  | call {mode : Mode} {c : Call} {shipped : List Action} {name : String}
      (direct : c.origin = none) (node : c.node = some name) : Names (call mode c shipped) name

/-- The name that an action calls itself, if it calls one. -/
def ownNames : Action → List String
  | call _ c _ => if c.origin.isNone then c.node.toList else []
  | _ => []

mutual

/-- The names that an action and the actions below it call, with the positions of the calls. -/
def mentions : Action → List (List Nat × String)
  | step _ _ => []
  | call mode c shipped =>
    (ownNames (call mode c shipped)).map (Prod.mk []) ++ mentionsFrom 0 shipped
  | group _ members => mentionsFrom 0 members

/-- The names that actions call which are numbered from `k` on, with the positions of the calls. -/
def mentionsFrom (k : Nat) : List Action → List (List Nat × String)
  | [] => []
  | a :: rest =>
    (a.mentions.map fun mention => (k :: mention.1, mention.2)) ++ mentionsFrom (k + 1) rest

end

theorem mem_ownNames {a : Action} {name : String} : name ∈ a.ownNames ↔ a.Names name := by
  constructor
  · intro member
    cases a with
    | call mode c shipped =>
      simp only [ownNames, Option.isNone_iff_eq_none] at member
      split at member
      · rename_i direct
        exact .call direct (by simpa using member)
      · exact absurd member List.not_mem_nil
    | _ => exact absurd member List.not_mem_nil
  · rintro ⟨direct, node⟩
    simp [ownNames, direct, node]

theorem mentions_eq (a : Action) :
    a.mentions = a.ownNames.map (Prod.mk []) ++ mentionsFrom 0 a.children := by
  cases a <;> rfl

theorem calledNodes_eq (a : Action) : a.calledNodes = a.ownNames ++ calledNodesOf a.children := by
  cases a <;> rfl

/-- Without their positions, what is mentioned in a list are the names that the list calls. -/
theorem names_mentionsFrom {actions : List Action}
    (each : ∀ a ∈ actions, a.mentions.map Prod.snd = a.calledNodes) (k : Nat) :
    (mentionsFrom k actions).map Prod.snd = calledNodesOf actions := by
  induction actions generalizing k with
  | nil => rfl
  | cons a rest ih =>
    obtain ⟨here, later⟩ := List.forall_mem_cons.1 each
    rw [mentionsFrom, calledNodesOf, List.map_append, List.map_map, ih later, ← here]
    rfl

theorem names_mentions (a : Action) : a.mentions.map Prod.snd = a.calledNodes := by
  induction a using children_induction with
  | up a ih =>
    rw [mentions_eq, calledNodes_eq, List.map_append, List.map_map, names_mentionsFrom ih]
    exact congrArg (· ++ _) (List.map_id _)

/-- What is mentioned in a list are the names at the positions of the list. -/
theorem mem_mentionsFrom {actions : List Action}
    (each : ∀ a ∈ actions, ∀ path name,
      (path, name) ∈ a.mentions ↔ ∃ b, a.at? path = some b ∧ b.Names name)
    {start : Nat} {path : List Nat} {name : String} :
    (path, name) ∈ mentionsFrom start actions ↔
      ∃ k rest b, path = (start + k) :: rest ∧ listAt? actions (k :: rest) = some b ∧
        b.Names name := by
  induction actions generalizing start with
  | nil => simp [mentionsFrom, listAt?]
  | cons a others ih =>
    obtain ⟨here, later⟩ := List.forall_mem_cons.1 each
    rw [mentionsFrom, List.mem_append, ih later]
    constructor
    · rintro (first | ⟨k, rest, b, rfl, found, names⟩)
      · obtain ⟨⟨rest, called⟩, inside, same⟩ := List.mem_map.1 first
        cases same
        obtain ⟨b, found, names⟩ := (here rest called).1 inside
        exact ⟨0, rest, b, rfl, found, names⟩
      · exact ⟨k + 1, rest, b, by rw [Nat.add_assoc, Nat.add_comm 1 k], found, names⟩
    · rintro ⟨k, rest, b, rfl, found, names⟩
      cases k with
      | zero =>
        have inside := (here rest name).2 ⟨b, found, names⟩
        exact .inl
          (List.mem_map_of_mem (f := fun mention => (start :: mention.1, mention.2)) inside)
      | succ k => exact .inr ⟨k, rest, b, by rw [Nat.add_assoc, Nat.add_comm 1 k], found, names⟩

theorem mem_mentions {a : Action} {path : List Nat} {name : String} :
    (path, name) ∈ a.mentions ↔ ∃ b, a.at? path = some b ∧ b.Names name := by
  induction a using children_induction generalizing path name with
  | up a ih =>
    rw [mentions_eq, List.mem_append, List.mem_map,
      mem_mentionsFrom fun b member path name => ih b member]
    constructor
    · rintro (⟨own, member, same⟩ | ⟨k, rest, b, rfl, found, names⟩)
      · cases same
        exact ⟨a, rfl, mem_ownNames.1 member⟩
      · rw [Nat.zero_add]
        exact ⟨b, found, names⟩
    · rintro ⟨b, found, names⟩
      cases path with
      | nil =>
        cases found
        exact .inl ⟨name, mem_ownNames.2 names, rfl⟩
      | cons k rest => exact .inr ⟨k, rest, b, by rw [Nat.zero_add], found, names⟩

/-! ## The order of positions -/

theorem ownNames_pairwise (a : Action) : a.ownNames.Pairwise fun _ _ => False := by
  cases a with
  | call mode c shipped =>
    rw [ownNames]
    split
    · cases c.node <;> simp
    · exact .nil
  | _ => exact .nil

/-- Positions ascend along a list if they do below each of its actions. -/
theorem mentionsFrom_pairwise {actions : List Action}
    (each : ∀ a ∈ actions, a.mentions.Pairwise fun x y => x.1 < y.1) (start : Nat) :
    (mentionsFrom start actions).Pairwise fun x y => x.1 < y.1 := by
  induction actions generalizing start with
  | nil => exact .nil
  | cons a rest ih =>
    obtain ⟨here, later⟩ := List.forall_mem_cons.1 each
    rw [mentionsFrom, List.pairwise_append]
    refine ⟨?_, ih later (start + 1), ?_⟩
    · apply here.map
      intro x y less
      exact List.cons_lt_cons_iff.2 (.inr ⟨rfl, less⟩)
    · intro x first ⟨path, name⟩ second
      obtain ⟨inner, -, rfl⟩ := List.mem_map.1 first
      obtain ⟨k, below, -, rfl, -⟩ :=
        (mem_mentionsFrom fun _ _ _ _ => mem_mentions).1 second
      exact List.cons_lt_cons_iff.2 (.inl (by omega))

/-- An action comes before what is nested in it, and what is nested in one of two actions comes
before what is nested in the later one. -/
theorem mentions_pairwise (a : Action) : a.mentions.Pairwise fun x y => x.1 < y.1 := by
  induction a using children_induction with
  | up a ih =>
    rw [mentions_eq, List.pairwise_append]
    refine ⟨?_, mentionsFrom_pairwise ih 0, ?_⟩
    · exact a.ownNames_pairwise.map _ fun _ _ => False.elim
    · intro x own ⟨path, name⟩ nested
      obtain ⟨inner, -, rfl⟩ := List.mem_map.1 own
      obtain ⟨k, below, -, rfl, -⟩ :=
        (mem_mentionsFrom fun _ _ _ _ => mem_mentions).1 nested
      exact List.nil_lt_cons _ _

end Action

/-! ## Nodes of a scenario -/

/-- A root request as the call that it is. -/
def RootRequest.toAction (r : RootRequest) : Action :=
  .call {} r.call r.actions

/-- At a position of the requests there is a call of the node by its name. -/
def CalledAt (requests : List RootRequest) (path : List Nat) (name : String) : Prop :=
  ∃ a, Action.listAt? (requests.map RootRequest.toAction) path = some a ∧ a.Names name

/-- The names that requests call, with the positions of the calls. -/
def mentioned (requests : List RootRequest) : List (List Nat × String) :=
  Action.mentionsFrom 0 (requests.map RootRequest.toAction)

theorem names_mentioned (requests : List RootRequest) :
    (mentioned requests).map Prod.snd = requests.flatMap RootRequest.calledNodes := by
  rw [mentioned, Action.names_mentionsFrom fun a _ => a.names_mentions]
  induction requests with
  | nil => rfl
  | cons r rest ih =>
    rw [List.map_cons, calledNodesOf, ih]
    rfl

theorem mem_mentioned {requests : List RootRequest} {path : List Nat} {name : String} :
    (path, name) ∈ mentioned requests ↔ CalledAt requests path name := by
  rw [mentioned, Action.mem_mentionsFrom fun _ _ _ _ => Action.mem_mentions]
  constructor
  · rintro ⟨k, rest, a, rfl, found, names⟩
    rw [Nat.zero_add]
    exact ⟨a, found, names⟩
  · rintro ⟨a, found, names⟩
    cases path with
    | nil => cases found
    | cons k rest => exact ⟨k, rest, a, by rw [Nat.zero_add], found, names⟩

theorem mem_collectNodes {requests : List RootRequest} {name : String} :
    name ∈ collectNodes requests ↔ ∃ path, CalledAt requests path name := by
  have listed : name ∈ collectNodes requests ↔ name ∈ (mentioned requests).map Prod.snd := by
    rw [names_mentioned, collectNodes_eq]
    constructor
    · intro member
      exact (of_mem_firstOccurrences member).resolve_left List.not_mem_nil
    · exact fun member => mem_firstOccurrences (.inr member)
  simp [listed, mem_mentioned]

theorem precedes_collectNodes (requests : List RootRequest) :
    (collectNodes requests).Pairwise fun a b =>
      a ≠ b ∧ ∃ p, CalledAt requests p a ∧ ∀ q, CalledAt requests q b → p < q := by
  rw [collectNodes_eq]
  refine (firstOccurrences_pairwise _).imp ?_
  rintro a b ⟨before, after, split, early, different⟩
  refine ⟨different.symm, ?_⟩
  rw [← names_mentioned, List.map_eq_append_iff] at split
  obtain ⟨first, second, listed, rfl, behind⟩ := split
  obtain ⟨⟨p, called⟩, later, rfl, rfl, rfl⟩ := List.map_eq_cons_iff.1 behind
  have ascending : (mentioned requests).Pairwise fun x y => x.1 < y.1 :=
    Action.mentionsFrom_pairwise (fun a _ => a.mentions_pairwise) 0
  rw [listed] at ascending
  have here : (p, called) ∈ mentioned requests := by simp [listed]
  refine ⟨p, mem_mentioned.1 here, ?_⟩
  intro q again
  have there := mem_mentioned.2 again
  rw [listed, List.mem_append, List.mem_cons] at there
  rcases there with before | same | after
  · exact absurd (List.mem_map_of_mem before) early
  · cases same
    exact absurd rfl different
  · exact (List.pairwise_cons.1 (List.pairwise_append.1 ascending).2.1).1 _ after

namespace Scenario

variable {s : Scenario} {name : String}

theorem node_ok_iff {node : NodeIdentity} :
    s.node name = .ok node ↔ s.nodes.find? (·.name = name) = some node := by
  rw [Scenario.node]
  cases s.nodes.find? (·.name = name) with
  | none => simp
  | some found => simp

theorem node_error_iff {e : SimulationError} :
    s.node name = .error e ↔ (∀ node ∈ s.nodes, node.name ≠ name) ∧ e = .nodeNotFound name := by
  have missing : s.nodes.find? (·.name = name) = none ↔ ∀ node ∈ s.nodes, node.name ≠ name := by
    simp [List.find?_eq_none]
  rw [Scenario.node, ← missing]
  cases s.nodes.find? (·.name = name) with
  | none => simp [eq_comm]
  | some found => simp

theorem exists_node_ok_iff :
    (∃ node, s.node name = .ok node) ↔ ∃ node ∈ s.nodes, node.name = name := by
  simp only [node_ok_iff, ← Option.isSome_iff_exists, List.find?_isSome, decide_eq_true_eq]

/-- The nodes that requests call by name are listed once each, by the first positions at which they
are called. A scenario gives its own nodes of these names in their order, or fails at the first name
that none of its nodes has. -/
theorem referencedNodes_ordered (s : Scenario) :
    (collectNodes s.requests).Nodup ∧
    (∀ name, name ∈ collectNodes s.requests ↔ ∃ path, CalledAt s.requests path name) ∧
    ((collectNodes s.requests).Pairwise fun a b =>
      ∃ p, CalledAt s.requests p a ∧ ∀ q, CalledAt s.requests q b → p < q) ∧
    (∀ nodes, s.referencedNodes = .ok nodes ↔
      List.Forall₂ (fun name node => s.nodes.find? (·.name = name) = some node)
        (collectNodes s.requests) nodes) ∧
    ∀ e, s.referencedNodes = .error e ↔
      ∃ before name after, collectNodes s.requests = before ++ name :: after ∧
        (∀ known ∈ before, ∃ node ∈ s.nodes, node.name = known) ∧
        (∀ node ∈ s.nodes, node.name ≠ name) ∧ e = .nodeNotFound name := by
  have ordered := precedes_collectNodes s.requests
  refine ⟨ordered.imp And.left, fun _ => mem_collectNodes, ordered.imp And.right, ?_, ?_⟩
  · intro nodes
    rw [referencedNodes, mapM_ok_iff]
    simp only [node_ok_iff]
  · intro e
    rw [referencedNodes, mapM_error_iff]
    simp only [exists_node_ok_iff, node_error_iff]

/-- A call in a group comes before the call behind the group, though that lies less deep. -/
example : collectNodes [{
      call := { node := some "gateway" }
      actions := [
        .group {} [.call {} { node := some "billing" } [.call {} { node := some "auth" } []]],
        .call {} { node := some "bank" } [], .call {} { node := some "auth" } []] }] =
    ["gateway", "billing", "auth", "bank"] := rfl

end Scenario

end Relay
