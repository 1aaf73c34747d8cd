import Relay.Proofs.Execution.Outcomes
import Relay.Proofs.Payload.Onward
import Relay.Proofs.Store.Resolve

/-! # Results of invocations

The data in a payload nest no deeper than JSON that can be read. Filling in placeholders changes
nothing about that, since it only puts text in the place of text. So the result of an invocation can
be read wherever its actions could, `run_result_tidy`.
-/

namespace Relay

theorem Json.Tidy.mono {m n : Nat} {j : Json} (tidy : j.Tidy m) (fits : m ≤ n) : j.Tidy n :=
  ⟨tidy.1, Nat.le_trans tidy.2 fits⟩

/-- The data of the step can be read within some levels. -/
def Step.Within (levels : Nat) (s : Step) : Prop :=
  ∀ j, s.data? = some j → j.Tidy levels

namespace Action

mutual

theorem ofJson_within {levels : Nat} {j : Json} {a : Action} (tidy : j.Tidy levels)
    (read : ofJson j = .ok a) : a.All (Step.Within levels) fun _ => True := by
  cases j with
  | object fields =>
    obtain ⟨level, rfl, inside⟩ := tidy.fields
    have origin := ofFields_from read
    have below {actions : List Action} (nested : ofActionsField fields = .ok actions) :
        AllList (Step.Within (level + 1)) (fun _ => True) actions :=
      ofActionsField_within (fun field member => (inside field member).mono (Nat.le_succ level))
        nested
    cases a with
    | step mode s =>
      intro data held
      rcases origin.1 data held with rfl | ⟨key, member⟩
      · exact ⟨trivial, Nat.zero_le _⟩
      · exact (inside _ member).mono (Nat.le_succ level)
    | call mode c shipped => exact ⟨trivial, below origin.1⟩
    | group mode members => exact below origin
  | _ => cases read

theorem ofActionsField_within {levels : Nat} {fields : List (String × Json)}
    {actions : List Action} (tidy : ∀ field ∈ fields, field.2.Tidy levels)
    (read : ofActionsField fields = .ok actions) :
    AllList (Step.Within levels) (fun _ => True) actions := by
  cases fields with
  | nil => cases read; trivial
  | cons field rest =>
    obtain ⟨key, value⟩ := field
    rw [ofActionsField] at read
    split at read
    · exact ofJsonList_within (tidy _ List.mem_cons_self) read
    · exact ofActionsField_within (fun other member => tidy other (List.mem_cons_of_mem _ member))
        read

theorem ofJsonList_within {levels : Nat} {j : Json} {actions : List Action}
    (tidy : j.Tidy levels) (read : ofJsonList j = .ok actions) :
    AllList (Step.Within levels) (fun _ => True) actions := by
  cases j with
  | array items =>
    obtain ⟨level, rfl, inside⟩ := tidy.items
    exact ofItems_within (fun item member => (inside item member).mono (Nat.le_succ level)) read
  | _ => cases read

theorem ofItems_within {levels : Nat} {items : List Json} {actions : List Action}
    (tidy : ∀ item ∈ items, item.Tidy levels) (read : ofItems items = .ok actions) :
    AllList (Step.Within levels) (fun _ => True) actions := by
  cases items with
  | nil => cases read; trivial
  | cons item rest =>
    rw [ofItems] at read
    split at read
    · cases read
    · rename_i a first
      split at read
      · cases read
      · rename_i others later
        cases read
        exact ⟨ofJson_within (tidy item List.mem_cons_self) first,
          ofItems_within (fun other member => tidy other (List.mem_cons_of_mem _ member)) later⟩

end

end Action

/-- The data of every accepted list can be read. -/
theorem Payload.decode_within {limits : PayloadLimits} {header : String} {actions : List Action}
    (decoded : decode limits header = .ok actions) :
    Action.AllList (Step.Within Json.nestingLimit) (fun _ => True) actions := by
  obtain ⟨⟨value, tidy, read⟩, -⟩ := decode_eq_ok decoded
  cases value with
  | array items =>
    obtain ⟨level, same, inside⟩ := tidy.items
    rw [same]
    exact Action.ofItems_within (fun item member => (inside item member).mono (Nat.le_succ level))
      (mapError_eq_ok read)
  | object fields =>
    cases own : Action.ofJson (.object fields) with
    | error e => rw [actionsOfJson, own] at read; cases read
    | ok a =>
      rw [actionsOfJson, own] at read
      cases read
      exact ⟨Action.ofJson_within tidy own, trivial⟩
  | _ => cases read

/-! ## Filling in placeholders -/

namespace Store

/-- A value with its placeholders filled in nests as deep as before. -/
theorem resolve_tidy (store : Store) {levels : Nat} {j : Json} (tidy : j.Tidy levels) :
    (store.resolve j).Tidy levels := by
  cases j with
  | array items =>
    obtain ⟨level, rfl, inside⟩ := tidy.items
    rw [resolve, resolveItems_eq]
    refine Json.tidy_array fun item member => ?_
    obtain ⟨old, there, rfl⟩ := List.mem_map.1 member
    exact resolve_tidy store (inside old there)
  | object fields =>
    obtain ⟨level, rfl, inside⟩ := tidy.fields
    rw [resolve, resolveFields_eq]
    refine Json.tidy_object (Fields.ascending_map tidy.1.1) fun field member => ?_
    obtain ⟨old, there, rfl⟩ := List.mem_map.1 member
    exact resolve_tidy store (inside old there)
  | _ => exact ⟨trivial, Nat.zero_le _⟩

end Store

/-- If the flow returns, its value can be read within some levels. -/
def Flow.Returns (levels : Nat) : Flow → Prop
  | .next _ => True
  | .ret value => value.Tidy levels

namespace Interpreter

theorem failureValue_tidy (message code : String) : (failureValue message code).Tidy 1 := by
  constructor
  · refine Json.closed_ordered.ofFields _ ?_
    simp [Json.Ordered]
  · refine Json.depth_object_le.2 ⟨0, rfl, ?_⟩
    intro field member
    have written := Fields.mem_of_mem_ofList member
    simp only [List.mem_cons, List.not_mem_nil, or_false] at written
    rcases written with rfl | rfl <;> exact Nat.le_refl _

/-- The result of an invocation can be read within the levels that its data need. -/
theorem run_result_tidy (i : Interpreter) {levels : Nat} {actions : List Action}
    (within : Action.AllList (Step.Within (levels + 1)) (fun _ => True) actions) :
    (i.run actions).result.Tidy (levels + 1) := by
  have returns : Action.AllList
      (fun s => ∀ data, s = .ret data →
        ∀ store : Store, (Flow.ret (store.resolve data)).Returns (levels + 1))
      (fun _ => True) actions := by
    refine within.imp ?_ fun _ _ => trivial
    rintro _ held data rfl store
    exact store.resolve_tidy (held data rfl)
  have meets : (Plan.whole i.config actions).Meets (Flow.Returns (levels + 1)) fun _ _ _ => True :=
    (Plan.meets_ofList (fun _ => trivial) (fun _ _ _ => trivial) 1 returns).entering 1
  rw [run]
  cases ended : (i.execute actions Dict.empty).result with
  | error e => exact (failureValue_tidy _ _).mono (Nat.succ_le_succ (Nat.zero_le levels))
  | ok flow =>
    cases flow with
    | next value => exact Json.tidy_array (List.forall_mem_nil _)
    | ret value =>
      rw [execute_eq_run] at ended
      exact meets.run i ended

end Interpreter

end Relay
