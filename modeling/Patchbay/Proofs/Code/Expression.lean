import Patchbay.Proofs.Text.Unmarked

namespace Patchbay

namespace Code

/-! Expressions of generated code, read from their text.

A text is split into words and marks, and these are read by the usual grammar: a product binds more
tightly than a sum, both associate to the left, and parentheses hold a sum.  The reader passes the tokens
once, with a stack for open parentheses, and finds exactly what the grammar derives; so the grammar gives
no text two expressions.
-/

inductive Expression where
  | variable (name : String)
  | literal (text : String)
  | sum (left right : Expression)
  | product (left right : Expression)
deriving DecidableEq, Repr

namespace Expression

/-- A meaning of numbers and operators. -/
structure Interpretation (V : Type u) where
  literal : String → V
  add : V → V → V
  mul : V → V → V

def evaluate {V : Type u} (meaning : Interpretation V) (values : String → V) : Expression → V
  | .variable name => values name
  | .literal text => meaning.literal text
  | .sum left right => meaning.add (left.evaluate meaning values) (right.evaluate meaning values)
  | .product left right => meaning.mul (left.evaluate meaning values) (right.evaluate meaning values)

/-- Whether a text starts like a number. -/
def startsNumber (text : String) : Bool :=
  text.toList.head?.any fun c => Text.isDigit c || c = '-'

/-- A word is a number when it starts like one, and a variable otherwise. -/
def ofWord (word : String) : Expression := if startsNumber word then .literal word else .variable word

/-! ## Tokens -/

inductive Token where
  | word (text : String)
  | plus
  | times
  | opening
  | closing
deriving DecidableEq, Repr

/-- The token that a character is by itself. -/
def Token.ofMark? : Char → Option Token
  | '+' => some .plus
  | '*' => some .times
  | '(' => some .opening
  | ')' => some .closing
  | _ => none

def isWordChar (c : Char) : Bool := c ≠ ' ' && (Token.ofMark? c).isNone

def IsWord (text : String) : Prop := text ≠ "" ∧ ∀ c ∈ text.toList, isWordChar c = true

/-- Puts the word that was collected in front of the tokens after it. -/
def endWord (word : List Char) (later : List Token) : List Token :=
  if word.isEmpty then later else .word (String.ofList word) :: later

/-- The characters of a word that a text starts with, and the tokens after them. -/
def scan : List Char → List Char × List Token
  | [] => ([], [])
  | c :: rest =>
      let (word, later) := scan rest
      if isWordChar c then (c :: word, later)
      else ([], (Token.ofMark? c).toList ++ endWord word later)

def tokensOf (characters : List Char) : List Token :=
  endWord (scan characters).1 (scan characters).2

def tokens (text : String) : List Token := tokensOf text.toList

variable {text left right : String} {front back characters : List Char} {c : Char}

theorem endWord_append (word : List Char) (later more : List Token) :
    endWord word (later ++ more) = endWord word later ++ more := by
  unfold endWord
  split <;> rfl

theorem tokensOf_cons (apart : isWordChar c = false) :
    tokensOf (c :: back) = (Token.ofMark? c).toList ++ tokensOf back := by
  simp [tokensOf, scan, apart, endWord]

theorem scan_append (apart : isWordChar c = false) : scan (front ++ c :: back) =
    ((scan front).1, (scan front).2 ++ tokensOf (c :: back)) := by
  induction front with
  | nil =>
      rw [tokensOf_cons apart]
      simp [scan, apart, tokensOf]
  | cons first rest ih =>
      rw [List.cons_append, scan, scan, ih]
      dsimp only
      cases isWordChar first with
      | true => rfl
      | false => simp [endWord_append]

/-- A mark or a blank ends what is before it. -/
theorem tokensOf_append (apart : isWordChar c = false) :
    tokensOf (front ++ c :: back) = tokensOf front ++ ((Token.ofMark? c).toList ++ tokensOf back) := by
  rw [← tokensOf_cons apart]
  unfold tokensOf
  rw [scan_append apart, endWord_append]
  rfl

theorem scan_of_word (all : ∀ c ∈ characters, isWordChar c = true) :
    scan characters = (characters, []) := by
  induction characters with
  | nil => rfl
  | cons first rest ih =>
      obtain ⟨isWord, restWord⟩ := List.forall_mem_cons.mp all
      rw [scan, ih restWord]
      simp [isWord]

theorem tokens_word (isWord : IsWord text) : tokens text = [.word text] := by
  obtain ⟨given, all⟩ := isWord
  simp [tokens, tokensOf, scan_of_word all, endWord, given]

theorem tokens_parenthesised : tokens ("(" ++ text ++ ")") = .opening :: tokens text ++ [.closing] := by
  have first : tokensOf ('(' :: (text.toList ++ [')'])) = .opening :: tokensOf (text.toList ++ [')']) :=
    tokensOf_cons rfl
  have last : tokensOf (text.toList ++ [')']) = tokensOf text.toList ++ [.closing] := tokensOf_append rfl
  rw [tokens, String.toList_append, String.toList_append]
  change tokensOf ('(' :: (text.toList ++ [')'])) = _
  rw [first, last]
  rfl

/-- An operator between blanks. -/
theorem tokens_operator {mark : Token} (isMark : Token.ofMark? c = some mark) :
    tokens (left ++ " " ++ String.singleton c ++ " " ++ right) = tokens left ++ mark :: tokens right := by
  have apart : isWordChar c = false := by simp [isWordChar, isMark]
  have blank : isWordChar ' ' = false := rfl
  have spread : (left ++ " " ++ String.singleton c ++ " " ++ right).toList =
      left.toList ++ ' ' :: c :: ' ' :: right.toList := by
    simp [String.toList_append]
  rw [tokens, spread, tokensOf_append blank, tokensOf_cons apart, tokensOf_cons blank, isMark]
  rfl

/-! ## The grammar -/

inductive Level where
  | operand
  | product
  | sum

/-- Tokens that spell an expression of a level. -/
inductive Derives : Level → List Token → Expression → Prop where
  | word (text : String) : Derives .operand [.word text] (ofWord text)
  | group {inner : List Token} {expression : Expression} (within : Derives .sum inner expression) :
      Derives .operand (.opening :: inner ++ [.closing]) expression
  | factor {one : List Token} {expression : Expression} (alone : Derives .operand one expression) :
      Derives .product one expression
  | times {front back : List Token} {first second : Expression} (factors : Derives .product front first)
      (last : Derives .operand back second) :
      Derives .product (front ++ .times :: back) (.product first second)
  | summand {one : List Token} {expression : Expression} (alone : Derives .product one expression) :
      Derives .sum one expression
  | plus {front back : List Token} {first second : Expression} (summands : Derives .sum front first)
      (last : Derives .product back second) : Derives .sum (front ++ .plus :: back) (.sum first second)

/-! ## The reader -/

/-- What comes before an operand: the summands that are complete, and the factors of the next one. -/
structure Pending where
  summands : Option Expression := none
  factors : Option Expression := none

namespace Pending

def product (pending : Pending) (last : Expression) : Expression :=
  pending.factors.elim last fun factors => .product factors last

def sum (pending : Pending) (last : Expression) : Expression :=
  pending.summands.elim (pending.product last) fun summands => .sum summands (pending.product last)

end Pending

/-- A reader between two tokens, after an operand or before one. -/
structure Reader where
  last : Option Expression := none
  pending : Pending := {}
  /-- What comes before the parentheses that are open, from the inner ones to the outer ones. -/
  outer : List Pending := []

namespace Reader

def read (reader : Reader) (token : Token) : Option Reader :=
  match token, reader.last with
  | .word text, none => some { reader with last := some (ofWord text) }
  | .times, some last => some
      { reader with last := none, pending := ⟨reader.pending.summands, some (reader.pending.product last)⟩ }
  | .plus, some last => some { reader with last := none, pending := ⟨some (reader.pending.sum last), none⟩ }
  | .opening, none => some { last := none, pending := {}, outer := reader.pending :: reader.outer }
  | .closing, some last => reader.outer.head?.map fun pending =>
      { last := some (reader.pending.sum last), pending, outer := reader.outer.tail }
  | _, _ => none

/-- The expression that was read, when nothing is missing. -/
def result? (reader : Reader) : Option Expression :=
  if reader.outer.isEmpty then reader.last.map reader.pending.sum else none

end Reader

def parseTokens (tokens : List Token) : Option Expression :=
  (tokens.foldlM Reader.read {}).bind Reader.result?

/-- The expression that a text spells, if it spells one. -/
def parse (text : String) : Option Expression := parseTokens (tokens text)

/-! ## What the grammar derives is found -/

/-- What the reader makes of tokens that spell an expression of a level. -/
def Finds : Level → List Token → Expression → Prop
  | .operand, tokens, expression => ∀ pending outer,
      tokens.foldlM Reader.read ⟨none, pending, outer⟩ = some ⟨some expression, pending, outer⟩
  | .product, tokens, expression => ∀ summands outer, ∃ last factors,
      tokens.foldlM Reader.read ⟨none, ⟨summands, none⟩, outer⟩ =
        some ⟨some last, ⟨summands, factors⟩, outer⟩ ∧
      Pending.product ⟨summands, factors⟩ last = expression
  | .sum, tokens, expression => ∀ outer, ∃ last pending,
      tokens.foldlM Reader.read ⟨none, {}, outer⟩ = some ⟨some last, pending, outer⟩ ∧
      pending.sum last = expression

theorem finds_of_derives {level : Level} {tokens : List Token} {expression : Expression}
    (derives : Derives level tokens expression) : Finds level tokens expression := by
  induction derives with
  | word text => exact fun pending outer => rfl
  | group _ ih =>
      intro pending outer
      obtain ⟨last, inner, run, rfl⟩ := ih (pending :: outer)
      rw [List.cons_append, List.foldlM_cons]
      change List.foldlM Reader.read ⟨none, {}, pending :: outer⟩ _ = _
      rw [List.foldlM_append, run]
      rfl
  | factor _ ih => exact fun summands outer => ⟨_, none, ih _ _, rfl⟩
  | times _ _ leftIH rightIH =>
      intro summands outer
      obtain ⟨last, factors, run, rfl⟩ := leftIH summands outer
      refine ⟨_, some (Pending.product ⟨summands, factors⟩ last), ?_, rfl⟩
      rw [List.foldlM_append, run]
      exact rightIH _ _
  | summand _ ih =>
      intro outer
      obtain ⟨last, factors, run, rfl⟩ := ih none outer
      exact ⟨last, _, run, rfl⟩
  | plus _ _ leftIH rightIH =>
      intro outer
      obtain ⟨last, pending, run, rfl⟩ := leftIH outer
      obtain ⟨final, factors, runRight, rfl⟩ := rightIH (some (pending.sum last)) outer
      refine ⟨final, ⟨some (pending.sum last), factors⟩, ?_, rfl⟩
      rw [List.foldlM_append, run]
      exact runRight

/-! ## What is found is derived -/

/-- Tokens that were read of an expression that is not complete. -/
structure Pending.Spelled (pending : Pending) (tokens : List Token) : Prop where
  parts : ∃ front back, tokens = front ++ back ∧
    (pending.summands.elim (front = []) fun summands =>
      ∃ spelling, front = spelling ++ [.plus] ∧ Derives .sum spelling summands) ∧
    pending.factors.elim (back = []) fun factors =>
      ∃ spelling, back = spelling ++ [.times] ∧ Derives .product spelling factors

theorem Pending.Spelled.derives {pending : Pending} {tokens operand : List Token} {last : Expression}
    (spelled : pending.Spelled tokens) (isOperand : Derives .operand operand last) :
    ∃ front back, tokens ++ operand = front ++ back ∧ Derives .product back (pending.product last) ∧
      (pending.summands.elim (front = []) fun summands =>
        ∃ spelling, front = spelling ++ [.plus] ∧ Derives .sum spelling summands) ∧
      Derives .sum (tokens ++ operand) (pending.sum last) := by
  obtain ⟨front, back, rfl, summands, factors⟩ := spelled.parts
  have product : Derives .product (back ++ operand) (pending.product last) := by
    unfold Pending.product
    cases given : pending.factors with
    | none =>
        rw [given] at factors
        cases factors
        exact .factor isOperand
    | some before =>
        rw [given] at factors
        obtain ⟨spelling, rfl, derives⟩ := factors
        rw [List.append_assoc]
        exact .times derives isOperand
  refine ⟨front, back ++ operand, by simp, product, summands, ?_⟩
  unfold Pending.sum
  cases given : pending.summands with
  | none =>
      rw [given] at summands
      cases summands
      exact .summand product
  | some before =>
      rw [given] at summands
      obtain ⟨spelling, rfl, derives⟩ := summands
      rw [List.append_assoc, List.append_assoc]
      exact .plus derives product

/-- The tokens before and at the open parentheses. -/
def Opened : List Pending → List Token → Prop
  | [], tokens => tokens = []
  | pending :: outer, tokens => ∃ before own, tokens = before ++ own ++ [.opening] ∧
      pending.Spelled own ∧ Opened outer before

/-- The tokens that a reader has passed. -/
structure Reader.Passed (reader : Reader) (tokens : List Token) : Prop where
  parts : ∃ before own operand, tokens = before ++ own ++ operand ∧ Opened reader.outer before ∧
    reader.pending.Spelled own ∧
    reader.last.elim (operand = []) fun last => Derives .operand operand last

theorem Reader.Passed.step {reader next : Reader} {tokens : List Token} {token : Token}
    (passed : reader.Passed tokens) (read : reader.read token = some next) :
    next.Passed (tokens ++ [token]) := by
  obtain ⟨before, own, operand, rfl, opened, spelled, isLast⟩ := passed.parts
  obtain ⟨last, pending, outer⟩ := reader
  cases last with
  | none =>
      cases isLast
      cases token with
      | word text =>
          cases read
          exact ⟨before, own, [.word text], by simp, opened, spelled, .word text⟩
      | opening =>
          cases read
          refine ⟨before ++ own ++ [.opening], [], [], by simp, ⟨before, own, rfl, spelled, opened⟩, ?_, rfl⟩
          exact ⟨[], [], rfl, rfl, rfl⟩
      | plus | times | closing => cases read
  | some last =>
      obtain ⟨front, back, same, product, summands, sum⟩ := spelled.derives isLast
      cases token with
      | times =>
          cases read
          refine ⟨before, own ++ operand ++ [.times], [], by simp, opened, ?_, rfl⟩
          exact ⟨front, back ++ [.times], by rw [same, List.append_assoc], summands, back, rfl, product⟩
      | plus =>
          cases read
          refine ⟨before, own ++ operand ++ [.plus], [], by simp, opened, ?_, rfl⟩
          exact ⟨own ++ operand ++ [.plus], [], by simp, ⟨own ++ operand, rfl, sum⟩, rfl⟩
      | closing =>
          cases outer with
          | nil => cases read
          | cons innermost rest =>
              cases read
              obtain ⟨earlier, outerOwn, rfl, outerSpelled, outerOpened⟩ := opened
              have grouped : Derives .operand (.opening :: (own ++ operand) ++ [.closing])
                  (pending.sum last) := .group sum
              exact ⟨earlier, outerOwn, _, by simp, outerOpened, outerSpelled, grouped⟩
      | word text => cases read
      | opening => cases read

theorem derives_of_parseTokens {tokens : List Token} {expression : Expression}
    (parsed : parseTokens tokens = some expression) : Derives .sum tokens expression := by
  obtain ⟨reader, run, given⟩ := Option.bind_eq_some_iff.mp parsed
  have passed : reader.Passed tokens := by
    suffices steps : ∀ (tokens done : List Token) (start : Reader), start.Passed done →
        tokens.foldlM Reader.read start = some reader → reader.Passed (done ++ tokens) from
      steps tokens [] {} ⟨[], [], [], rfl, rfl, ⟨[], [], rfl, rfl, rfl⟩, rfl⟩ run
    intro tokens
    induction tokens with
    | nil =>
        intro done start held ended
        cases ended
        simpa using held
    | cons token rest ih =>
        intro done start held ran
        rw [List.foldlM_cons] at ran
        obtain ⟨next, read, ran⟩ := Option.bind_eq_some_iff.mp ran
        simpa using ih (done ++ [token]) next (held.step read) ran
  obtain ⟨before, own, operand, rfl, opened, spelled, isLast⟩ := passed.parts
  obtain ⟨last, pending, outer⟩ := reader
  cases outer with
  | cons innermost rest => cases given
  | nil =>
      cases last with
      | none => cases given
      | some last =>
          cases given
          cases opened
          obtain ⟨_, _, _, _, _, sum⟩ := spelled.derives isLast
          exact sum

/-- The reader finds what the grammar derives, and nothing else. -/
theorem parseTokens_eq_some_iff {tokens : List Token} {expression : Expression} :
    parseTokens tokens = some expression ↔ Derives .sum tokens expression := by
  refine ⟨derives_of_parseTokens, fun derives => ?_⟩
  obtain ⟨last, pending, run, rfl⟩ := finds_of_derives derives []
  rw [parseTokens, run]
  rfl

theorem parse_eq_some_iff {expression : Expression} :
    parse text = some expression ↔ Derives .sum (tokens text) expression :=
  parseTokens_eq_some_iff

example : parse "a + b * -2 + c" = some
    (.sum (.sum (.variable "a") (.product (.variable "b") (.literal "-2"))) (.variable "c")) := by
  decide

example : parse "(a + b) * -2" = some
    (.product (.sum (.variable "a") (.variable "b")) (.literal "-2")) := by
  decide

/-! ## Texts -/

/-- A text that can stand at any side of an operator. -/
def Spells (text : String) (expression : Expression) : Prop :=
  Derives .operand (tokens text) expression

theorem spells_word (isWord : IsWord text) : Spells text (ofWord text) := by
  unfold Spells
  rw [tokens_word isWord]
  exact .word text

theorem spells_parenthesised {expression : Expression} (derives : Derives .sum (tokens text) expression) :
    Spells ("(" ++ text ++ ")") expression := by
  unfold Spells
  rw [tokens_parenthesised]
  exact .group derives

theorem Spells.parse {expression : Expression} (spells : Spells text expression) :
    parse text = some expression :=
  parse_eq_some_iff.mpr (.summand (.factor spells))

theorem Spells.plus {first second : Expression} (isLeft : Spells left first)
    (isRight : Spells right second) :
    Derives .sum (tokens (left ++ " " ++ "+" ++ " " ++ right)) (.sum first second) := by
  have split : tokens (left ++ " " ++ "+" ++ " " ++ right) = tokens left ++ .plus :: tokens right :=
    tokens_operator (c := '+') rfl
  rw [split]
  exact .plus (.summand (.factor isLeft)) (.factor isRight)

theorem Spells.times {first second : Expression} (isLeft : Spells left first)
    (isRight : Spells right second) :
    Derives .sum (tokens (left ++ " " ++ "*" ++ " " ++ right)) (.product first second) := by
  have split : tokens (left ++ " " ++ "*" ++ " " ++ right) = tokens left ++ .times :: tokens right :=
    tokens_operator (c := '*') rfl
  rw [split]
  exact .summand (.times (.factor isLeft) isRight)

/-! ## Words of generated code -/

theorem isWordChar_of_isPlain (plain : Text.isPlain c = true) : isWordChar c = true := by
  have apart : c ≠ ' ' ∧ c ≠ '+' ∧ c ≠ '*' ∧ c ≠ '(' ∧ c ≠ ')' := by
    refine ⟨?_, ?_, ?_, ?_, ?_⟩ <;>
    · rintro rfl
      exact absurd plain (by decide)
  simp [isWordChar, Token.ofMark?, apart]

/-- A name of a node is a variable, and so is a member of what it names. -/
theorem spells_nodeName {parts : List String} {member : String} (given : parts ≠ [])
    (isMember : ∀ c ∈ member.toList, isWordChar c = true) :
    Spells (Text.join ("N" :: parts) ++ member) (.variable (Text.join ("N" :: parts) ++ member)) := by
  obtain ⟨first, rest, rfl⟩ := List.exists_cons_of_ne_nil given
  have starts : (Text.join ("N" :: first :: rest) ++ member).toList =
      'N' :: '_' :: (Text.joinParts (first :: rest) ++ member.toList) := by
    rw [String.toList_append, Text.join, String.toList_ofList]
    rfl
  have isWord : IsWord (Text.join ("N" :: first :: rest) ++ member) := by
    refine ⟨fun empty => ?_, fun c isChar => ?_⟩
    · rw [empty] at starts
      cases starts
    · rw [starts] at isChar
      simp only [List.mem_cons, List.mem_append] at isChar
      rcases isChar with rfl | rfl | isName | isLater
      · decide
      · decide
      · rcases Text.cases_of_mem_joinParts isName with plain | rfl | rfl
        · exact isWordChar_of_isPlain plain
        · decide
        · decide
      · exact isMember c isLater
  have isName : startsNumber (Text.join ("N" :: first :: rest) ++ member) = false := by
    unfold startsNumber
    rw [starts]
    rfl
  have spells := spells_word isWord
  rwa [ofWord, if_neg (by simp [isName])] at spells

end Expression

end Code

/-! ## Numbers -/

namespace Number

open Code.Expression (Spells IsWord isWordChar startsNumber ofWord)

def IsFinite (value : Float) : Prop := ∃ negative significand exponent,
  ofDouble value = .finite negative significand exponent

/-- Positional digits start with a digit. -/
theorem Decimal.head_positional {decimal : Decimal} (digits : ∀ c ∈ decimal.digits, Text.isDigit c = true) :
    ∃ c rest, decimal.positional = c :: rest ∧ Text.isDigit c = true := by
  unfold positional
  dsimp only
  split
  · exact ⟨'0', [], rfl, rfl⟩
  · next given =>
    split
    · exact ⟨'0', _, rfl, rfl⟩
    · next above =>
      have nonempty : decimal.digits ≠ [] := fun empty => given (by rw [empty]; rfl)
      obtain ⟨c, rest, isDigits⟩ := List.exists_cons_of_ne_nil nonempty
      rw [isDigits] at digits ⊢
      have digit := digits c (List.mem_cons_self ..)
      split
      · exact ⟨c, _, rfl, digit⟩
      · obtain ⟨size, isSize⟩ : ∃ size, decimal.point.toNat = size + 1 :=
          Nat.exists_eq_succ_of_ne_zero (by omega)
        rw [isSize, List.take_succ_cons]
        exact ⟨c, _, rfl, digit⟩

/-- A finite number is written as one word, which is a number. -/
theorem spells_toCode {value : Float} (finite : IsFinite value) :
    Spells (toCode value) (.literal (toCode value)) := by
  obtain ⟨negative, significand, exponent, decoded⟩ := finite
  have digits := isDigit_shortest .double significand exponent
  have all : ∀ c ∈ (shortest .double significand exponent).positional, isWordChar c = true :=
    (Decimal.positional_all (by decide) (by decide) fun c member =>
      Code.Expression.isWordChar_of_isPlain (by simp [Text.isPlain, digits c member])).2
  obtain ⟨first, rest, isPositional, digit⟩ := Decimal.head_positional digits
  have written : (toCode value).toList =
      if negative then '-' :: first :: rest else first :: rest := by
    unfold toCode writeBinary
    rw [decoded]
    dsimp only
    rw [String.toList_ofList, ← isPositional]
    rfl
  rw [isPositional] at all
  have isWord : IsWord (toCode value) := by
    refine ⟨fun empty => ?_, ?_⟩
    · rw [empty] at written
      cases negative <;> cases written
    · rw [written]
      cases negative with
      | false => exact all
      | true => exact List.forall_mem_cons.mpr ⟨by decide, all⟩
  have starts : startsNumber (toCode value) = true := by
    unfold startsNumber
    rw [written]
    cases negative <;> simp [digit]
  have spells := Code.Expression.spells_word isWord
  rwa [ofWord, if_pos starts] at spells

end Number

end Patchbay
