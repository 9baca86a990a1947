import ScriptStrip.Proofs.Counted
import ScriptStrip.Rewrite.Basic
/-
This file relates actions that report what they do to the counts of it. A list whose elements are
all offered before they are walked through comes to the same as one offer and walk after another.
-/

namespace ScriptStrip

/-- What one finding of the kind adds to the counts. -/
def Configuration.Finding.counts : Configuration.Finding → Statistics
  | .stripped => { removed := 1 }
  | .asserted _ => { folded := 1 }
  | .flag _ => { replaced := 1 }

/-- Whatever was reported before, the action gives the value and adds the counts. -/
def Yields {Value : Type} (action : StateM Report Value) (result : Counted Value) : Prop :=
  ∀ report, (action.run report).1 = result.value ∧
    (action.run report).2.statistics = report.statistics + result.counts

namespace Yields

variable {Value Result : Type}

/-- A value alone counts nothing. -/
theorem pure (value : Value) : Yields (pure value) (pure value) :=
  fun report => ⟨rfl, (add_zero report.statistics).symm⟩

/-- Two actions in a row add up what they count. -/
theorem bind {action : StateM Report Value} {counted : Counted Value}
    {next : Value → StateM Report Result} {following : Value → Counted Result}
    (first : Yields action counted)
    (second : Yields (next counted.value) (following counted.value)) :
    Yields (action >>= next) (counted >>= following) := by
  intro report
  obtain ⟨sameValue, sameCounts⟩ := first report
  obtain ⟨sameResult, addedCounts⟩ := second (action.run report).2
  rw [StateT.run_bind]
  change ((next (action.run report).1).run (action.run report).2).1 = _ ∧
    ((next (action.run report).1).run (action.run report).2).2.statistics = _
  rw [sameValue]
  refine ⟨sameResult, ?_⟩
  rw [addedCounts, sameCounts, add_assoc]
  rfl

/-- The same for a result that is known. -/
theorem bindTo {action : StateM Report Value} {value : Value} {counts : Statistics}
    {next : Value → StateM Report Result} {result : Counted Result}
    (first : Yields action ⟨value, counts⟩) (second : Yields (next value) result) :
    Yields (action >>= next) ⟨result.value, counts + result.counts⟩ :=
  @Yields.bind _ _ action ⟨value, counts⟩ next (fun _ => result) first second

/-- A function on the result counts nothing. -/
theorem map {action : StateM Report Value} {counted : Counted Value} (function : Value → Result)
    (yields : Yields action counted) : Yields (function <$> action) (function <$> counted) := by
  rw [← bind_pure_comp, ← bind_pure_comp]
  exact yields.bind (Yields.pure _)

/-- What is recorded beside the counts makes no difference to them. -/
theorem afterRecord {action : StateM Report Value} {counted : Counted Value} (event : Event)
    (yields : Yields action counted) :
    Yields (modify (Report.record event) >>= fun _ => action) counted :=
  fun report => yields (report.record event)

/-- An action after a note on what was found is counted together with the finding. -/
theorem afterNote {action : StateM Report Value} {counted : Counted Value}
    (expression : Expression) (finding : Configuration.Finding) (yields : Yields action counted) :
    Yields (Configuration.note expression finding >>= fun _ => action)
      (Counted.doing finding.counts >>= fun _ => counted) := by
  have noted : Yields (Configuration.note expression finding) (Counted.doing finding.counts) := by
    intro report
    cases finding <;> exact ⟨rfl, rfl⟩
  exact noted.bind yields

end Yields

/-- The first action is taken on a value and the second one on what it leaves. Together they give
the result. -/
def TwoRounds {Value Offered Result : Type} (first : Value → StateM Report Offered)
    (second : Offered → StateM Report Result) (value : Value) (result : Counted Result) : Prop :=
  ∃ offered walked, Yields (first value) offered ∧ Yields (second offered.value) walked ∧
    result = ⟨walked.value, offered.counts + walked.counts⟩

namespace TwoRounds

variable {Value Offered Result : Type} {first : Value → StateM Report Offered}
  {second : Offered → StateM Report Result} {single : Value → Counted Result}

/-- Two rounds in a row give the result of both. -/
theorem yields {value : Value} {result : Counted Result}
    (rounds : TwoRounds first second value result) : Yields (first value >>= second) result := by
  obtain ⟨offered, walked, offers, walks, rfl⟩ := rounds
  exact offers.bindTo walks

/-- Two rounds over a list come to the same as one in which each value has both of its turns. -/
theorem mapM {values : List Value}
    (each : ∀ value ∈ values, TwoRounds first second value (single value)) :
    TwoRounds (List.mapM first) (List.mapM second) values (values.mapM single) := by
  induction values with
  | nil => exact ⟨pure [], pure [], Yields.pure [], Yields.pure [], rfl⟩
  | cons head tail inductionHypothesis =>
      obtain ⟨offered, walked, offers, walks, whole⟩ := each head List.mem_cons_self
      obtain ⟨offeredTail, walkedTail, offersTail, walksTail, wholeTail⟩ :=
        inductionHypothesis fun value inside => each value (List.mem_cons_of_mem _ inside)
      refine ⟨do return (← offered) :: (← offeredTail), do return (← walked) :: (← walkedTail),
        ?_, ?_, ?_⟩
      · rw [List.mapM_cons]
        exact offers.bind (offersTail.bind (Yields.pure _))
      · change Yields (List.mapM second (offered.value :: offeredTail.value)) _
        rw [List.mapM_cons]
        exact walks.bind (walksTail.bind (Yields.pure _))
      · rw [List.mapM_cons, whole, wholeTail]
        apply Counted.ext
        · rfl
        · simp only [Counted.counts_bind, Counted.counts_pure, add_zero]
          exact add_add_add_comm _ _ _ _

end TwoRounds

/-- The first action can leave nothing of a value, and then there is no second one. -/
inductive KeptRounds {Value Offered Result : Type} (first : Value → StateM Report (Option Offered))
    (second : Offered → StateM Report Result) (value : Value) : Counted (Option Result) → Prop where
  | dropped {counts : Statistics} (drops : Yields (first value) ⟨none, counts⟩) :
      KeptRounds first second value ⟨none, counts⟩
  | kept {offered : Offered} {counts : Statistics} {walked : Counted Result}
      (keeps : Yields (first value) ⟨some offered, counts⟩)
      (walks : Yields (second offered) walked) :
      KeptRounds first second value ⟨some walked.value, counts + walked.counts⟩

namespace KeptRounds

variable {Value Offered Result : Type} {first : Value → StateM Report (Option Offered)}
  {second : Offered → StateM Report Result}

/-- A value that the first round drops is not seen by the second. -/
theorem of_dropped {value : Value} {result : Counted (Option Result)}
    {counts : Statistics} (drops : Yields (first value) ⟨none, counts⟩)
    (same : result = ⟨none, counts⟩) : KeptRounds first second value result := by
  rw [same]
  exact .dropped drops

/-- A value that the first round keeps goes through both. -/
theorem of_kept {value : Value} {result : Counted (Option Result)}
    {offered : Offered} {counts : Statistics} {walked : Counted Result}
    (keeps : Yields (first value) ⟨some offered, counts⟩) (walks : Yields (second offered) walked)
    (same : result = ⟨some walked.value, counts + walked.counts⟩) :
    KeptRounds first second value result := by
  rw [same]
  exact .kept keeps walks

/-- If each item goes through its rounds, the list does, first all of one and then all of the
other. -/
theorem filterMapM {single : Value → Counted (Option Result)} {values : List Value}
    (each : ∀ value ∈ values, KeptRounds first second value (single value)) :
    TwoRounds (List.filterMapM first) (List.mapM second) values (values.filterMapM single) := by
  induction values with
  | nil => exact ⟨pure [], pure [], Yields.pure [], Yields.pure [], rfl⟩
  | cons head tail inductionHypothesis =>
      obtain ⟨offeredTail, walkedTail, offersTail, walksTail, wholeTail⟩ :=
        inductionHypothesis fun value inside => each value (List.mem_cons_of_mem _ inside)
      have ofHead := each head List.mem_cons_self
      generalize whole : single head = result at ofHead
      cases ofHead with
      | @dropped counts drops =>
          refine ⟨⟨offeredTail.value, counts + offeredTail.counts⟩, walkedTail, ?_, walksTail, ?_⟩
          · rw [List.filterMapM_cons]
            exact drops.bindTo offersTail
          · rw [List.filterMapM_cons, whole, wholeTail]
            exact Counted.ext rfl (add_assoc _ _ _).symm
      | @kept offered counts walked keeps walks =>
          refine ⟨⟨offered :: offeredTail.value, counts + offeredTail.counts⟩,
            do return (← walked) :: (← walkedTail), ?_, ?_, ?_⟩
          · rw [List.filterMapM_cons]
            have rest := offersTail.map (offered :: ·)
            rw [← bind_pure_comp] at rest
            have both := @Yields.bindTo _ _ _ _ _
              (fun head => match head with
                | none => List.filterMapM first tail
                | some head => do return head :: (← List.filterMapM first tail)) _ keeps rest
            rwa [Counted.value_map, Counted.counts_map] at both
          · rw [List.mapM_cons]
            exact walks.bind (walksTail.bind (Yields.pure _))
          · rw [List.filterMapM_cons, whole, wholeTail]
            apply Counted.ext
            · rfl
            · simp only [Counted.counts_bind, Counted.counts_pure, add_zero]
              exact add_add_add_comm _ _ _ _

end KeptRounds

end ScriptStrip
