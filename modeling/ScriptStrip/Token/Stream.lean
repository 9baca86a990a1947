import ScriptStrip.Token.Basic
/-
This file defines the tokens that a reader has not read yet.
-/

namespace ScriptStrip

/-- The tokens ahead of a reader. The end of the source closes them and is never passed. -/
structure TokenStream where
  ahead : List Token
  last : Token
  ahead_lexeme : ∀ token ∈ ahead, token.lexeme ≠ .endOfSource
  last_lexeme : last.lexeme = .endOfSource

namespace TokenStream

/-- A stream is the tokens ahead and the end of the source behind them. -/
def toList (stream : TokenStream) : List Token := stream.ahead ++ [stream.last]

/-- The number of tokens before the end. -/
def size (stream : TokenStream) : Nat := stream.ahead.length

/-- The token that is read next. -/
def front (stream : TokenStream) : Token := stream.ahead.headD stream.last

/-- The stream behind its front token. -/
def advance (stream : TokenStream) : TokenStream where
  ahead := stream.ahead.tail
  last := stream.last
  ahead_lexeme token inTail := stream.ahead_lexeme token (List.mem_of_mem_tail inTail)
  last_lexeme := stream.last_lexeme

/-- The stream behind one more token. -/
def push (token : Token) (stream : TokenStream) (inside : token.lexeme ≠ .endOfSource) :
    TokenStream where
  ahead := token :: stream.ahead
  last := stream.last
  ahead_lexeme := by
    intro member inAhead
    rcases List.mem_cons.mp inAhead with rfl | inRest
    · exact inside
    · exact stream.ahead_lexeme member inRest
  last_lexeme := stream.last_lexeme

/-- A list of tokens is read up to the first end of the source in it. -/
def upToEnd? : List Token → Option TokenStream
  | [] => none
  | token :: rest =>
      if atEnd : token.lexeme = .endOfSource then
        some ⟨[], token, by simp, atEnd⟩
      else (upToEnd? rest).map fun stream => stream.push token atEnd

/-- The last of the tokens has to be the end of the source. -/
def ofList? (tokens : List Token) : Option TokenStream :=
  match tokens.getLast? with
  | some token => if token.lexeme = .endOfSource then upToEnd? tokens else none
  | none => none

/-- A token that is put in front is the first of the list. -/
theorem toList_push {token : Token} {stream : TokenStream}
    (inside : token.lexeme ≠ .endOfSource) :
    (stream.push token inside).toList = token :: stream.toList := rfl

/-- Each step takes one token, until the end is reached. -/
theorem size_advance (stream : TokenStream) : stream.advance.size = stream.size - 1 := by
  simp [size, advance]

/-- The end is in front exactly where no token is ahead. -/
theorem front_lexeme_eq_end_iff (stream : TokenStream) :
    stream.front.lexeme = .endOfSource ↔ stream.ahead = [] := by
  unfold front
  cases shape : stream.ahead with
  | nil => simp [stream.last_lexeme]
  | cons token rest =>
      have := stream.ahead_lexeme token (by simp [shape])
      simp [this]

/-- A step takes the first of the tokens ahead. -/
theorem ahead_advance (stream : TokenStream) : stream.advance.ahead = stream.ahead.tail := rfl

/-- The end of the source is never passed. -/
theorem last_advance (stream : TokenStream) : stream.advance.last = stream.last := rfl

/-- A front token that is not the end is the first of the tokens ahead. -/
theorem ahead_eq_cons {stream : TokenStream} (inside : stream.front.lexeme ≠ .endOfSource) :
    stream.ahead = stream.front :: stream.advance.ahead := by
  rw [ahead_advance, front]
  cases shape : stream.ahead with
  | nil => exact absurd ((front_lexeme_eq_end_iff stream).mpr shape) inside
  | cons token rest => rfl

/-- A stream is a front of the list that it is made of. -/
theorem toList_upToEnd? {tokens : List Token} {stream : TokenStream}
    (found : upToEnd? tokens = some stream) : ∃ rest, tokens = stream.toList ++ rest := by
  induction tokens generalizing stream with
  | nil => simp [upToEnd?] at found
  | cons token rest inductionHypothesis =>
      unfold upToEnd? at found
      split at found
      · cases found
        exact ⟨rest, rfl⟩
      · obtain ⟨inner, innerFound, rfl⟩ := Option.map_eq_some_iff.mp found
        obtain ⟨after, whole⟩ := inductionHypothesis innerFound
        exact ⟨after, by simp [toList_push, whole]⟩

/-- A stream is made again of its own list. -/
theorem upToEnd?_toList (stream : TokenStream) : upToEnd? stream.toList = some stream := by
  obtain ⟨ahead, last, inside, atEnd⟩ := stream
  unfold toList
  induction ahead with
  | nil => simp [upToEnd?, atEnd]
  | cons first rest step =>
      have notEnd := inside first List.mem_cons_self
      have found := step fun token inRest => inside token (List.mem_cons_of_mem _ inRest)
      dsimp only at found
      rw [List.cons_append, upToEnd?, dif_neg notEnd, found]
      rfl

end TokenStream

end ScriptStrip
