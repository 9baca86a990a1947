import ScriptStrip.Proofs.GrammarCompleting
import ScriptStrip.Proofs.GrammarRetracing
import ScriptStrip.Proofs.ParserComplete
import ScriptStrip.Proofs.TokenPlaces
/-
This file shows that the error of a refused script lies at the first token that cannot stand there,
whatever the tokens behind it are.
-/

namespace ScriptStrip

/-- The tokens are read as a script. -/
def Script.IsReadFrom (tokens : List Token) : Prop :=
  ∃ stream script rest, TokenStream.ofList? tokens = some stream ∧
    Parser.Reads Parser.script stream script rest

namespace TokenStream

variable {stream stop : TokenStream}

/-- A stream has its front token first. -/
theorem toList_eq_cons (stream : TokenStream) :
    ∃ behind, stream.toList = stream.front :: behind := by
  unfold toList front
  cases stream.ahead with
  | nil => exact ⟨[], rfl⟩
  | cons first rest => exact ⟨rest ++ [stream.last], rfl⟩

/-- In front of the end a stream is its front token and the rest. -/
theorem toList_of_front (inside : stream.front.lexeme ≠ .endOfSource) :
    stream.toList = stream.front :: stream.advance.toList := by
  rw [toList, ahead_eq_cons inside]
  rfl

/-- What is left of a stream is an end of its list. -/
theorem IsEndOf.suffix (isEnd : stop.IsEndOf stream) : stop.toList <:+ stream.toList := by
  obtain ⟨skipped, isAhead⟩ := isEnd.1
  exact ⟨skipped, by rw [toList, toList, ← isAhead, isEnd.2, List.append_assoc]⟩

/-- Where each token stands behind the one before it, their spans tell them apart. -/
theorem marks_of_ordered (ordered : stream.toList.Pairwise Token.Precedes)
    (isEnd : stop.IsEndOf stream) : stop.Marks stream := by
  intro rest restEnd same
  by_contra shorter
  have inside : stop.front.lexeme ≠ .endOfSource := by
    rw [Ne, front_lexeme_eq_end_iff]
    intro atEnd
    have none : stop.size = 0 := congrArg List.length atEnd
    omega
  have advanceEnd := (isEndOf_advance stop).trans isEnd
  have fits : rest.size ≤ stop.advance.size := by
    rw [size_advance]
    omega
  have behind : rest.IsEndOf stop.advance :=
    ⟨List.suffix_of_suffix_length_le restEnd.1 advanceEnd.1 fits,
      restEnd.2.trans advanceEnd.2.symm⟩
  have laterInside : rest.front ∈ stop.advance.toList := by
    obtain ⟨_, isCons⟩ := toList_eq_cons rest
    exact behind.suffix.subset (isCons ▸ List.mem_cons_self)
  have orderedStop := ordered.sublist isEnd.suffix.sublist
  rw [toList_of_front inside, List.pairwise_cons] at orderedStop
  have precedes := (orderedStop.1 _ laterInside).1
  rw [same] at precedes
  exact Nat.lt_irrefl _ precedes

/-- A list of tokens that is read starts with the tokens of a stream. -/
theorem toList_ofList? {tokens : List Token} (found : ofList? tokens = some stream) :
    ∃ rest, tokens = stream.toList ++ rest := by
  unfold ofList? at found
  split at found
  · split at found
    · exact toList_upToEnd? found
    · cases found
  · cases found

/-- A stream is made again of its own list. -/
theorem ofList?_toList (stream : TokenStream) : ofList? stream.toList = some stream := by
  have isLast : stream.toList.getLast? = some stream.last := List.getLast?_concat
  rw [ofList?, isLast]
  dsimp only
  rw [if_pos stream.last_lexeme, upToEnd?_toList]

/-- A place in a list of tokens that is read is a place in the stream. -/
theorem exists_isEndOf {tokens rest more : List Token} {token : Token}
    (inside : ∀ member ∈ tokens, member.lexeme ≠ .endOfSource)
    (whole : tokens ++ token :: rest = stream.toList ++ more) :
    ∃ stop : TokenStream, stream.ahead = tokens ++ stop.ahead ∧ stop.last = stream.last ∧
      stop.front = token := by
  induction tokens generalizing stream with
  | nil =>
      obtain ⟨behind, isCons⟩ := toList_eq_cons stream
      rw [isCons] at whole
      exact ⟨stream, rfl, rfl, (List.cons.inj whole).1.symm⟩
  | cons first tokens step =>
      rw [List.forall_mem_cons] at inside
      have isFront : first = stream.front := by
        obtain ⟨behind, isCons⟩ := toList_eq_cons stream
        rw [isCons] at whole
        exact (List.cons.inj whole).1
      subst isFront
      rw [toList_of_front inside.1] at whole
      obtain ⟨stop, isAhead, sameLast, isToken⟩ := step inside.2 (List.cons.inj whole).2
      refine ⟨stop, ?_, sameLast, isToken⟩
      rw [ahead_eq_cons inside.1, isAhead, List.cons_append]

end TokenStream

namespace Grammar
open ScriptStrip.Parser ScriptStrip.TokenStream Spelling

/-- Statements up to the end of the source. -/
def statementsToEnd (levels : Nat) : Parser (List Statement) := do
  let items ← statements (within levels).anyStatement levels
  finish
  return items

variable {before stop stop' : TokenStream} {levels levels' : Nat} {error : SyntaxError}

/-- The statements of a script are retraced up to the end. -/
theorem retraces_statementsToEnd (small : before.size < levels) (more : levels ≤ levels') :
    Parser.Retraces stop stop' (fun _ => ()) (statementsToEnd levels) (statementsToEnd levels')
      before := by
  have sound := sound_within levels
  have each {before : TokenStream} (inside : before.size < levels) : Parser.Retraces stop stop'
      Statement.manner (within levels).anyStatement (within levels').anyStatement before :=
    (retraces_within more).anyStatement sound (by rw [levels_within]; omega)
  have advances {before : TokenStream} {statement : Statement} {after : TokenStream}
      (reads : Reads (within levels).anyStatement before statement after) : after.size < before.size :=
    (advances_ofStatement statement _ _ (sound.anyStatement reads).2.1).2
  refine (Retraces.statements each advances small more small).bind fun _ _ _ => ?_
  exact Parser.Retraces.finish.bind fun _ _ _ => .pure rfl

/-- The tokens in front of an error can be completed to a script. -/
theorem viable_statementsToEnd (small : before.size < levels)
    (refuses : Refuses (statementsToEnd levels) before error) :
    Viable True True before error (oneOf Statement.AllWellShaped ofStatements) := by
  have sound := sound_within levels
  rcases refuses_bind_iff.mp refuses with refusesItems | ⟨items, middle, readsItems, refuses⟩
  · refine Completes.statements sound.anyStatement (fun inside refuses => ?_) small small refusesItems
    exact (completes_within levels).anyStatement sound (by rw [levels_within]; omega) refuses
  · obtain ⟨wellShaped, spelled⟩ := Sound.statements sound.anyStatement readsItems
    have same : error.span = middle.front.span := by
      obtain ⟨_, rfl⟩ := by simpa [refuses_bind_iff] using refuses
      rfl
    have nothingLeft : Viable True True middle error nothing := .done same fun _ _ => rfl
    refine (nothingLeft.after (portable_ofStatements items) spelled .inl).mono ?_
    rintro _ _ _ ⟨_, spelled, rfl⟩
    exact ⟨items, wellShaped, spelled⟩

/-- A stream that spells a well shaped script is read to the end. -/
theorem reads_statementsToEnd {script : Script} (small : before.size < levels)
    (wellShaped : script.WellShaped) (spelled : script.SpelledBy before) :
    ∃ items after, Reads (statementsToEnd levels) before items after := by
  obtain ⟨rest, atEnd, items, reads, _⟩ := Script.recovers_of_spelledBy small wellShaped spelled
  exact ⟨items, rest, reads_bind_iff.mpr ⟨items, rest, reads, by simp [atEnd]⟩⟩

end Grammar

namespace Script
open TokenStream

variable {stream : TokenStream} {error : SyntaxError}

/-- A text that is scanned and not read is refused by the grammar. -/
theorem refuses_of_parse {source : String} (scanned : TokenStream.ofSource source = .ok stream)
    (rejected : parse source = .error error) :
    Parser.Refuses (Grammar.statementsToEnd (stream.size + 1)) stream error := by
  rcases Parser.refuses_of_readAll scanned rejected with refuses | ⟨script, rest, reads, refuses⟩
  · rcases Parser.refuses_bind_iff.mp refuses with refusesItems | ⟨items, middle, reads, refuses⟩
    · exact Parser.refuses_bind_iff.mpr (.inl (Parser.refuses_reader_iff.mp refusesItems))
    · have refusesEnd : Parser.Refuses Parser.finish middle error := by
        simpa [Parser.refuses_bind_iff] using refuses
      exact Parser.refuses_bind_iff.mpr (.inr ⟨items, middle, Parser.reads_reader_iff.mp reads,
        Parser.refuses_bind_iff.mpr (.inl refusesEnd)⟩)
  · have atEnd := (Parser.reads_script_iff.mp reads).2.1
    exact absurd atEnd (Parser.refuses_finish_iff.mp refuses).1

/-- What stands in front of the token can be completed to a script. -/
theorem completes_of_refuses
    (refuses : Parser.Refuses (Grammar.statementsToEnd (stream.size + 1)) stream error) :
    ∃ stop : TokenStream, stop.IsEndOf stream ∧ error.span = stop.front.span ∧
      ∀ before, stream.ahead = before ++ stop.ahead → ∃ rest, IsReadFrom (before ++ rest) := by
  obtain ⟨stop, isEnd, same, completes⟩ :=
    Grammar.viable_statementsToEnd (Nat.lt_succ_self _) refuses
  refine ⟨stop, isEnd, same, fun before isAhead => ?_⟩
  let atEnd : TokenStream := ⟨[], stream.last, by simp, stream.last_lexeme⟩
  obtain ⟨stop', _, mirrored⟩ := completes atEnd fun _ => .inr stream.last_lexeme
  have inside : ∀ token ∈ before ++ stop'.ahead, token.lexeme ≠ .endOfSource := by
    intro token isToken
    rcases List.mem_append.mp isToken with inBefore | inStop
    · exact stream.ahead_lexeme token (isAhead ▸ List.mem_append_left _ inBefore)
    · exact stop'.ahead_lexeme token inStop
  let completed : TokenStream := ⟨before ++ stop'.ahead, stop'.last, inside, stop'.last_lexeme⟩
  have mirrors : Mirrors stop stop' stream completed :=
    mirrors_of_forall₂ (List.forall₂_same.mpr fun token _ => .refl token) isAhead rfl rfl
  obtain ⟨items, wellShaped, spelled⟩ := mirrored completed mirrors
  have isWellShaped : WellShaped ⟨items, .null⟩ := wellShaped
  obtain ⟨script, rest, reads, _⟩ :=
    reads_of_spelledBy isWellShaped ⟨atEnd, spelled, stream.last_lexeme⟩
  refine ⟨stop'.toList, completed, script, rest, ?_, reads⟩
  rw [← ofList?_toList completed]
  exact congrArg ofList? (List.append_assoc _ _ _).symm

/-- The token itself cannot stand there. -/
theorem not_isReadFrom_of_refuses {stop : TokenStream}
    (refuses : Parser.Refuses (Grammar.statementsToEnd (stream.size + 1)) stream error)
    (marks : stop.Marks stream) (same : error.span = stop.front.span)
    {before first rest : List Token} {token : Token} (isAhead : stream.ahead = before ++ stop.ahead)
    (sameLast : stop.last = stream.last) (alike : List.Forall₂ Token.Alike before first)
    (alikeToken : stop.front.Alike token) : ¬ IsReadFrom (first ++ token :: rest) := by
  rintro ⟨stream', script, behind, found, reads⟩
  obtain ⟨more, whole⟩ := toList_ofList? found
  have inside := Token.inside_of_alike alike fun member inBefore =>
    stream.ahead_lexeme member (isAhead ▸ List.mem_append_left _ inBefore)
  obtain ⟨stop', isAhead', sameLast', rfl⟩ := exists_isEndOf inside whole
  have copies : Copies stop stop' stream stream' :=
    ⟨mirrors_of_forall₂ alike isAhead isAhead' sameLast'.symm, alikeToken, sameLast⟩
  obtain ⟨wellShaped, spelled⟩ := spelledBy_of_reads reads
  have small' : stream'.size < stream.size + 1 + stream'.size := by omega
  obtain ⟨items, after, readsItems⟩ := Grammar.reads_statementsToEnd small' wellShaped spelled
  have retraces : Parser.Retraces stop stop' (fun _ => ()) _ _ stream :=
    Grammar.retraces_statementsToEnd (Nat.lt_succ_self stream.size) (Nat.le_add_right _ stream'.size)
  exact retraces.refuses refuses marks same copies items after readsItems

/-- The error stands at the first token that no script can have there. -/
theorem error_at_first_impossible {source : String}
    (small : Text.byteCount source.toList < 0x100000000)
    (scanned : TokenStream.ofSource source = .ok stream)
    (rejected : parse source = .error error) :
    ∃ before token behind, stream.toList = before ++ token :: behind ∧ error.span = token.span ∧
      (∃ rest, IsReadFrom (before ++ rest)) ∧
        ∀ first token' rest, List.Forall₂ Token.Alike before first → token.Alike token' →
          ¬ IsReadFrom (first ++ token' :: rest) := by
  have refuses := refuses_of_parse scanned rejected
  obtain ⟨stop, isEnd, same, completes⟩ := completes_of_refuses refuses
  have marks := marks_of_ordered (laidOut_of_ofSource small scanned).ordered isEnd
  obtain ⟨before, isAhead⟩ := isEnd.1
  obtain ⟨behind, isStop⟩ := toList_eq_cons stop
  refine ⟨before, stop.front, behind, ?_, same, completes before isAhead.symm,
    fun _ _ _ => not_isReadFrom_of_refuses refuses marks same isAhead.symm isEnd.2⟩
  rw [← isStop, toList, toList, ← isAhead, isEnd.2, List.append_assoc]

/-- The mark of an assignment is read before its target is refused. -/
theorem error_at_first_impossible_assign :
    Text.byteCount "let x = 1\na + b = c".toList < 0x100000000 ∧
      ∃ stream error, TokenStream.ofSource "let x = 1\na + b = c" = .ok stream ∧
        parse "let x = 1\na + b = c" = .error error ∧ error.span = ⟨16, 17⟩ ∧
        ∃ before token behind, stream.toList = before ++ token :: behind ∧ error.span = token.span ∧
          (∃ rest, IsReadFrom (before ++ rest)) ∧
            ∀ first token' rest, List.Forall₂ Token.Alike before first → token.Alike token' →
              ¬ IsReadFrom (first ++ token' :: rest) := by
  have small : Text.byteCount "let x = 1\na + b = c".toList < 0x100000000 := by decide
  have accepted : (TokenStream.ofSource "let x = 1\na + b = c").isOk = true := by cbv
  have rejected : parse "let x = 1\na + b = c" =
      .error ⟨.invalidAssignmentTarget, ⟨16, 17⟩⟩ := by
    cbv
  cases scanned : TokenStream.ofSource "let x = 1\na + b = c" with
  | error error =>
      rw [scanned] at accepted
      cases accepted
  | ok stream =>
      exact ⟨small, stream, _, rfl, rejected, rfl, error_at_first_impossible small scanned rejected⟩

end Script

end ScriptStrip
