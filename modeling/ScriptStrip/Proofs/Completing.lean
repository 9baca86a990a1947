import ScriptStrip.Proofs.Retracing
/-
This file completes what has been read in front of a token that is refused. Whatever is to stand
behind it, there are tokens that lead up to it.
-/

namespace ScriptStrip

namespace Spelling

/-- The spelling can be written in front of all tokens, or of all that close statements. -/
def Fills (closing : Prop) (spelling : Spelling) : Prop :=
  ∀ rest : TokenStream, (closing → rest.front.ClosesStatements) → ∃ start, spelling start rest

/-- One of the good values is spelled. -/
def oneOf {Value : Type} (good : Value → Prop) (spelling : Value → Spelling) : Spelling :=
  fun before after => ∃ value, good value ∧ spelling value before after

variable {closing : Prop} {first second spelling : Spelling}

/-- Two spellings in a row fill if the first one does in front of any token. -/
theorem Fills.andThen (fills : first.Fills False) (following : second.Fills closing) :
    (first.andThen second).Fills closing := by
  intro rest closes
  obtain ⟨middle, spelledSecond⟩ := following rest closes
  obtain ⟨start, spelledFirst⟩ := fills middle False.elim
  exact ⟨start, middle, spelledFirst, spelledSecond⟩

/-- What fills also fills whatever it is a case of. -/
theorem Fills.mono {whole : Spelling} (fills : spelling.Fills closing)
    (imp : ∀ {before after}, spelling before after → whole before after) : whole.Fills closing := by
  intro rest closes
  obtain ⟨start, spelled⟩ := fills rest closes
  exact ⟨start, imp spelled⟩

/-- Nothing fills itself. -/
theorem fills_nothing : nothing.Fills closing := fun rest _ => ⟨rest, rfl⟩

/-- A token fills with any lexeme that is wanted. -/
theorem fills_one {wanted : Lexeme → Prop} {lexeme : Lexeme} (isWanted : wanted lexeme)
    (inside : lexeme ≠ .endOfSource) : (one wanted).Fills closing :=
  fun rest _ => ⟨rest.push ⟨lexeme, .null, false⟩ inside, isWanted, rfl⟩

/-- A mark fills with its token. -/
theorem fills_mark (wanted : Punctuator) : (mark wanted).Fills closing := fills_one rfl (by simp)

/-- A name fills with its token. -/
theorem fills_identifier (name : String) : (identifier name).Fills closing :=
  fills_one rfl (by simp)

end Spelling

namespace TokenStream
open Spelling

/-- The error lies at a token, and what stands in front of the token can be completed. Where it is
settled, it is completed at once unless there is a token in front. -/
def Viable (closing settled : Prop) (before : TokenStream) (error : SyntaxError)
    (whole : Spelling) : Prop :=
  ∃ stop : TokenStream, stop.IsEndOf before ∧ error.span = stop.front.span ∧
    ∀ rest : TokenStream, (closing → rest.front.ClosesStatements) → ∃ stop' : TokenStream,
      (settled → stop.size < before.size ∨ stop'.front.ClosesStatements) ∧
        ∀ before', Mirrors stop stop' before before' → whole before' rest

namespace Viable

variable {closing settled : Prop} {before middle : TokenStream} {error : SyntaxError}
  {first following whole whole' : Spelling}

/-- An error is viable in a spelling that has the completion as a case. -/
theorem mono (viable : Viable closing settled before error whole)
    (imp : ∀ {before' rest}, (closing → rest.front.ClosesStatements) → whole before' rest →
      whole' before' rest) :
    Viable closing settled before error whole' := by
  obtain ⟨stop, isEnd, same, completes⟩ := viable
  refine ⟨stop, isEnd, same, fun rest closes => ?_⟩
  obtain ⟨stop', isSettled, mirrored⟩ := completes rest closes
  exact ⟨stop', isSettled, fun before' mirrors => imp closes (mirrored before' mirrors)⟩

/-- A completion in front of some tokens is one in front of fewer. -/
theorem weaken {closing' : Prop} (viable : Viable closing settled before error whole)
    (imp : closing → closing') : Viable closing' False before error whole := by
  obtain ⟨stop, isEnd, same, completes⟩ := viable
  refine ⟨stop, isEnd, same, fun rest closes => ?_⟩
  obtain ⟨stop', _, mirrored⟩ := completes rest fun isClosing => closes (imp isClosing)
  exact ⟨stop', False.elim, mirrored⟩

/-- The front token is refused. -/
theorem here (same : error.span = before.front.span) (fills : whole.Fills closing) :
    Viable closing False before error whole := by
  refine ⟨before, .refl _, same, fun rest closes => ?_⟩
  obtain ⟨start, spelled⟩ := fills rest closes
  refine ⟨start, False.elim, fun before' mirrors => ?_⟩
  obtain rfl := mirrors.of_size_eq rfl
  exact spelled

/-- The front token is refused, and nothing is missing in front of it. -/
theorem done (same : error.span = before.front.span)
    (nothingLeft : ∀ rest : TokenStream, rest.front.ClosesStatements → whole rest rest) :
    Viable True settled before error whole := by
  refine ⟨before, .refl _, same, fun rest closes => ⟨rest, fun _ => .inr (closes trivial), ?_⟩⟩
  intro before' mirrors
  obtain rfl := mirrors.of_size_eq rfl
  exact nothingLeft _ (closes trivial)

/-- What has been read in front of the place is kept. -/
theorem after {settled' : Prop} (portable : first.Portable settled) (spelled : first before middle)
    (viable : Viable closing settled middle error following)
    (settles : settled' → settled ∨ middle.size < before.size) :
    Viable closing settled' before error (first.andThen following) := by
  obtain ⟨stop, isEnd, same, completes⟩ := viable
  have isEndMiddle : middle.IsEndOf before :=
    ⟨portable.bounded before middle spelled, portable.sameLast spelled⟩
  refine ⟨stop, isEnd.trans isEndMiddle, same, fun rest closes => ?_⟩
  obtain ⟨stop', isSettled, mirrored⟩ := completes rest closes
  refine ⟨stop', fun holds => ?_, fun before' mirrors => ?_⟩
  · rcases settles holds with holds | shorter
    · exact (isSettled holds).imp_left fun inside => Nat.lt_of_lt_of_le inside isEndMiddle.size_le
    · exact .inl (Nat.lt_of_le_of_lt isEnd.size_le shorter)
  · obtain ⟨middle', moved, mirrorsMiddle⟩ :=
      portable.moves spelled mirrors isEnd.size_le isSettled
    exact ⟨middle', moved, mirrored middle' mirrorsMiddle⟩

/-- More tokens are written behind what has been completed. -/
theorem andThen {closing' : Prop} (viable : Viable closing' settled before error whole)
    (fills : ∀ rest : TokenStream, (closing → rest.front.ClosesStatements) →
      ∃ middle, (closing' → middle.front.ClosesStatements) ∧ following middle rest) :
    Viable closing settled before error (whole.andThen following) := by
  obtain ⟨stop, isEnd, same, completes⟩ := viable
  refine ⟨stop, isEnd, same, fun rest closes => ?_⟩
  obtain ⟨middle, closesMiddle, spelled⟩ := fills rest closes
  obtain ⟨stop', isSettled, mirrored⟩ := completes middle closesMiddle
  exact ⟨stop', isSettled, fun before' mirrors => ⟨middle, mirrored before' mirrors, spelled⟩⟩

/-- What is missing behind the error is filled in. -/
theorem andFill (viable : Viable False settled before error whole) (fills : following.Fills closing) :
    Viable closing settled before error (whole.andThen following) :=
  viable.andThen fun rest closes => (fills rest closes).imp fun _ spelled => ⟨False.elim, spelled⟩

/-- The error lies at the front token, or the front token belongs to what is completed. -/
theorem keepFront (viable : Viable closing settled before error whole)
    (fills : whole'.Fills closing)
    (imp : ∀ {before' rest}, before.front.Alike before'.front → whole before' rest →
      whole' before' rest) :
    Viable closing False before error whole' := by
  obtain ⟨stop, isEnd, same, completes⟩ := viable
  by_cases inside : stop.size < before.size
  · refine ⟨stop, isEnd, same, fun rest closes => ?_⟩
    obtain ⟨stop', _, mirrored⟩ := completes rest closes
    exact ⟨stop', False.elim, fun before' mirrors =>
      imp (mirrors.of_size_lt inside).1 (mirrored before' mirrors)⟩
  · obtain rfl := isEnd.eq_of_size_le (Nat.not_lt.mp inside)
    exact here same fills

/-- Where the error lies at the front token, nothing has to be read. -/
theorem settle (viable : Viable True False before error whole)
    (nothingLeft : ∀ rest : TokenStream, rest.front.ClosesStatements → whole rest rest) :
    Viable True settled before error whole := by
  obtain ⟨stop, isEnd, same, completes⟩ := viable
  by_cases inside : stop.size < before.size
  · refine ⟨stop, isEnd, same, fun rest closes => ?_⟩
    obtain ⟨stop', _, mirrored⟩ := completes rest closes
    exact ⟨stop', fun _ => .inl inside, mirrored⟩
  · obtain rfl := isEnd.eq_of_size_le (Nat.not_lt.mp inside)
    exact done same nothingLeft

/-- The place of a missing last token is filled with the token. -/
theorem expectLast {Value : Type} {wanted : Lexeme} {returned : Span → Value}
    (refuses : Parser.Refuses (Parser.expect wanted >>= fun span => pure (returned span)) before error)
    (inside : wanted ≠ .endOfSource) : Viable closing False before error (one (· = wanted)) := by
  rcases Parser.refuses_expect_bind_iff.mp refuses with ⟨_, rfl⟩ | ⟨_, refuses⟩
  · exact here rfl (fills_one rfl inside)
  · exact absurd refuses Parser.not_refuses_pure

/-- A token is missing, or it has been read and something behind it is refused. -/
theorem expect {Value : Type} {wanted : Lexeme} {next : Span → Parser Value}
    (refuses : Parser.Refuses (Parser.expect wanted >>= next) before error)
    (inside : wanted ≠ .endOfSource) (fills : following.Fills closing)
    (further : before.advance.size < before.size →
      Parser.Refuses (next before.front.span) before.advance error →
        Viable closing False before.advance error following) :
    Viable closing False before error ((one (· = wanted)).andThen following) := by
  rcases Parser.refuses_expect_bind_iff.mp refuses with ⟨_, rfl⟩ | ⟨isWanted, refuses⟩
  · have fillsToken : (one (· = wanted)).Fills False := fills_one rfl inside
    exact here rfl (fillsToken.andThen fills)
  · have shorter := size_advance_lt (isWanted ▸ inside)
    exact (further shorter refuses).after (portable_lexeme inside) ⟨isWanted, rfl⟩ False.elim

end Viable

end TokenStream

end ScriptStrip
