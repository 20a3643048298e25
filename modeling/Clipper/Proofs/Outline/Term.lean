import Clipper.Proofs.Outline.QuotedCode
import Clipper.Syntax.Outline

/-!
# Terms and their text

The outline of an expression, of a declared name and of the head of a statement
is the text of a term: a word, a quoted text, terms between brackets behind a
name for what they are the parts of, or a term with a label.  No word holds a
character that stands between words.  So a term begins with a run of characters
of words, and the character behind the run tells how it goes on: what the text
of a term is and where it ends can be read off from the left.

Not every term is the term of an expression.  Words are arbitrary texts here,
and clean terms are those whose words are made of word characters; this is
what the left-to-right reading needs, and it is what the names and numbers of
a scanned text satisfy.  A head is spelled by a word that tells it, so terms
with different heads differ in their first run of characters.
-/

namespace Clipper.Outline

/--
What the parts of a term between brackets,
or a bare word of an outline, belong to.
-/
inductive Head where
  | nothing
  | literal (kind : LiteralKind)
  | identifier
  | unary (operator : UnaryOperator)
  | binary (operator : BinaryOperator)
  | call
  | index
  | array
  | send
  | field
  | codeBlock
  | assign
  | update
  | print (newLine : Bool)
  | declare (storage : Storage)
  | result
  | conditional
  | positive
  | negative
  | whileLoop
  | forLoop
  | body
  | routine (isStatic : Bool) (kind : RoutineKind)
  | exit
  | loop
deriving DecidableEq

namespace Head

/-- How a head is written. -/
def spelling : Head → List Char
  | nothing => []
  | literal kind => kind.name.toList
  | identifier => "Ident".toList
  | unary operator => operator.name.toList
  | binary operator => operator.name.toList
  | call => "Call".toList
  | index => "Index".toList
  | array => "Array".toList
  | send => "Send".toList
  | field => "Alias".toList
  | codeBlock => "CodeBlock".toList
  | assign => "Assign".toList
  | update => "CompoundAssign".toList
  | print newLine => (if newLine then "Print" else "PrintInline").toList
  | declare storage => storage.name.toList
  | result => "Return".toList
  | conditional => "If".toList
  | positive => "Then".toList
  | negative => "Else".toList
  | whileLoop => "While".toList
  | forLoop => "For".toList
  | body => "Body".toList
  | routine isStatic kind =>
      (if isStatic then "Static".toList else []) ++ kind.name.toList
  | exit => "Exit".toList
  | loop => "Loop".toList

/-- All heads. -/
def all : List Head :=
  [nothing, .literal .number, .literal .string, .literal .nil,
    .literal .logical, identifier, .unary .negate, .unary .plus, .unary .not,
    .binary .add, .binary .subtract, .binary .multiply, .binary .divide,
    .binary .modulo, .binary .equal, .binary .exactlyEqual, .binary .notEqual,
    .binary .less, .binary .lessEqual, .binary .greater, .binary .greaterEqual,
    .binary .contains, .binary .and, .binary .or, call, index, array, send,
    field, codeBlock, assign, update, .print true, .print false,
    .declare .perCall, .declare .static, result, conditional, positive,
    negative, whileLoop, forLoop, body, .routine true .function,
    .routine true .procedure, .routine false .function,
    .routine false .procedure, exit, loop]

/-- The head that is written so. -/
def ofSpelling? (text : List Char) : Option Head :=
  all.find? (fun head => head.spelling == text)

/-- The spelling of a head is read back as this head. -/
theorem ofSpelling?_spelling (head : Head) :
    ofSpelling? head.spelling = some head := by
  have found : ∀ head ∈ all, ofSpelling? head.spelling = some head := by
    decide +kernel
  have listed : head ∈ all := by
    cases head with
    | literal argument | unary argument | binary argument | print argument
    | declare argument =>
        cases argument <;> decide
    | routine isStatic kind => cases isStatic <;> cases kind <;> decide
    | _ => decide
  exact found head listed

theorem spelling_injective : Function.Injective spelling := by
  intro first second same
  have found := ofSpelling?_spelling first
  rw [same, ofSpelling?_spelling] at found
  exact (Option.some_inj.mp found).symm

end Head

/-! ## Terms -/

/-- The brackets around the parts of a term. -/
inductive Brackets where
  | round
  | square

namespace Brackets

def opening : Brackets → Char
  | round => '('
  | square => '['

def closing : Brackets → Char
  | round => ')'
  | square => ']'

theorem opening_injective : Function.Injective opening := by
  intro first second same
  cases first <;> cases second <;> first | rfl | exact absurd same (by decide)

theorem closing_ne_comma (brackets : Brackets) : brackets.closing ≠ ',' := by
  cases brackets <;> decide

end Brackets

/-- What stands in a line of an outline. -/
inductive Term where
  | word (text : List Char)
  | quoted (text : List Char)
  | group (head : Head) (brackets : Brackets) (parts : List Term)
  | labelled (label : List Char) (value : Term)

namespace Term

mutual

/-- The text of a term. -/
def text : Term → List Char
  | word text => text
  | quoted text => Text.quoted text
  | group head brackets parts =>
      head.spelling ++ brackets.opening ::
        (commaSeparated (texts parts) ++ [brackets.closing])
  | labelled label value => label ++ " := ".toList ++ value.text

/-- The texts of several terms. -/
def texts : List Term → List (List Char)
  | [] => []
  | first :: rest => first.text :: texts rest

end

@[simp]
theorem texts_eq_map (terms : List Term) : texts terms = terms.map text := by
  induction terms with
  | nil => rfl
  | cons first rest hypothesis => rw [texts, hypothesis, List.map_cons]

end Term

/-! ## Words -/

/-- The characters that may stand in a word of an outline. -/
def isWordCharacter (character : Char) : Bool :=
  !(['(', ')', '[', ']', ',', ' ', '"', '\n'].contains character)

/-- A text that can stand as a word. -/
structure IsWord (text : List Char) : Prop where
  nonempty : text ≠ []
  parts : ∀ character ∈ text, isWordCharacter character = true

theorem isWord_of_all
    {text : List Char}
    (nonempty : text ≠ [])
    (parts : text.all isWordCharacter = true) :
    IsWord text :=
  ⟨nonempty, List.all_eq_true.mp parts⟩

/-- The spelling of a head is made of the characters of words. -/
theorem Head.isWordCharacter_of_mem
    {head : Head}
    {character : Char}
    (member : character ∈ head.spelling) :
    isWordCharacter character = true := by
  have parts : ∀ head ∈ all, head.spelling.all isWordCharacter = true := by
    decide +kernel
  have listed : head ∈ all :=
    List.mem_of_find?_eq_some head.ofSpelling?_spelling
  exact List.all_eq_true.mp (parts head listed) character member

/-! ## Reading a term back -/

/-- What stands behind a term of an outline begins so. -/
abbrev Stops (rest : List Char) : Prop :=
  ∀ character ∈ rest.head?, character ∈ [',', ')', ']', '\n']

namespace Term

/-- The words of a term can stand as words. -/
inductive Clean : Term → Prop where
  | word {text : List Char} (isWord : IsWord text) : Clean (word text)
  | quoted (text : List Char) : Clean (quoted text)
  | group
      {head : Head}
      {brackets : Brackets}
      {parts : List Term}
      (clean : ∀ part ∈ parts, Clean part) :
      Clean (group head brackets parts)
  | labelled
      {label : List Char}
      {value : Term}
      (isWord : IsWord label)
      (clean : Clean value) :
      Clean (labelled label value)

theorem clean_spelling
    {head : Head}
    (named : head.spelling ≠ []) :
    (word head.spelling).Clean :=
  .word ⟨named, fun _ => Head.isWordCharacter_of_mem⟩

/-- The run of characters of words with which a term begins. -/
def lead : Term → List Char
  | word text => text
  | quoted _ => []
  | group head _ _ => head.spelling
  | labelled label _ => label

/-- The text of a term behind the run with which it begins. -/
def tail : Term → List Char
  | word _ => []
  | quoted text => Text.quoted text
  | group _ brackets parts =>
      brackets.opening :: (commaSeparated (texts parts) ++ [brackets.closing])
  | labelled _ value => " := ".toList ++ value.text

theorem text_eq (term : Term) : term.text = term.lead ++ term.tail := by
  cases term with
  | word => exact (List.append_nil _).symm
  | quoted | group => rfl
  | labelled => exact List.append_assoc ..

theorem Clean.isWordCharacter_lead
    {term : Term}
    (clean : term.Clean) :
    ∀ character ∈ term.lead, isWordCharacter character = true := by
  cases clean with
  | word isWord | labelled isWord => exact isWord.parts
  | quoted => exact List.forall_mem_nil _
  | group => exact fun _ => Head.isWordCharacter_of_mem

/-- Behind the run with which a term begins stands no character of a word. -/
theorem not_isWordCharacter_tail
    (term : Term)
    {rest : List Char}
    (stops : Stops rest) :
    ∀ character ∈ (term.tail ++ rest).head?,
      isWordCharacter character = false := by
  cases term with
  | word =>
      have ends : ∀ character ∈ [',', ')', ']', '\n'],
          isWordCharacter character = false := by
        simp [isWordCharacter]
      exact fun character member => ends character (stops character member)
  | group _ brackets =>
      rintro _ ⟨⟩
      cases brackets <;> rfl
  | quoted | labelled =>
      rintro _ ⟨⟩
      rfl

/-- Terms whose texts begin a text agree in the runs with which they begin. -/
theorem lead_tail_of_text
    {first second : Term}
    (clean : first.Clean)
    (cleanToo : second.Clean)
    {rest others : List Char}
    (stops : Stops rest)
    (stopsToo : Stops others)
    (same : first.text ++ rest = second.text ++ others) :
    first.lead = second.lead ∧ first.tail ++ rest = second.tail ++ others := by
  rw [text_eq, text_eq, List.append_assoc, List.append_assoc] at same
  exact append_inj_of_runs clean.isWordCharacter_lead
    (first.not_isWordCharacter_tail stops)
    cleanToo.isWordCharacter_lead
      (second.not_isWordCharacter_tail stopsToo) same

/-- The characters with which a term may begin. -/
def opensTerm (character : Char) : Bool :=
  isWordCharacter character || ['"', '(', '['].contains character

/--
The text of a clean term has a first character, and it is one
with which terms begin.
-/
theorem Clean.exists_first
    {term : Term}
    (clean : term.Clean) :
    ∃ character rest, term.text = character :: rest ∧
      opensTerm character = true := by
  have inWord {text : List Char} (isWord : IsWord text) (behind : List Char) :
      ∃ character rest, text ++ behind = character :: rest ∧
        opensTerm character = true := by
    obtain ⟨character, rest, rfl⟩ := List.exists_cons_of_ne_nil isWord.nonempty
    have part := isWord.parts character List.mem_cons_self
    exact ⟨character, rest ++ behind,
      rfl, by rw [opensTerm, part, Bool.true_or]⟩
  rw [text_eq]
  cases clean with
  | word isWord | labelled isWord => exact inWord isWord _
  | quoted => exact ⟨'"', _, rfl, rfl⟩
  | @group head brackets =>
      cases written : head.spelling with
      | nil =>
          rw [lead, written]
          exact ⟨brackets.opening, _, rfl, by cases brackets <;> rfl⟩
      | cons character rest =>
          rw [lead, written]
          have isWord : IsWord (character :: rest) :=
            ⟨List.cons_ne_nil _ _, fun _ member =>
              Head.isWordCharacter_of_mem (written ▸ member)⟩
          exact inWord isWord _

/--
The character behind the run with which a
term begins; a word has none of its own.
-/
def mark? : Term → Option Char
  | word _ => none
  | quoted _ => some '"'
  | group _ brackets _ => some brackets.opening
  | labelled _ _ => some ' '

/-- What follows the run of a term tells which sort of term it is. -/
theorem mark?_eq_of_tail
    {first second : Term}
    {rest others : List Char}
    (stops : Stops rest)
    (stopsToo : Stops others)
    (same : first.tail ++ rest = second.tail ++ others) :
    first.mark? = second.mark? := by
  have heads (term : Term) (rest : List Char) :
      (term.tail ++ rest).head? = term.mark?.or rest.head? := by
    cases term <;> rfl
  have apart (term : Term) : ∀ mark ∈ term.mark?,
      mark ∉ [',', ')', ']', '\n'] := by
    cases term with
    | word => nofun
    | group _ brackets => cases brackets <;> simp [mark?, Brackets.opening]
    | quoted | labelled => simp [mark?]
  have both : first.mark?.or rest.head? = second.mark?.or others.head? := by
    rw [← heads, same, heads]
  cases marked : first.mark? with
  | none =>
      cases markedToo : second.mark? with
      | none => rfl
      | some mark =>
          rw [marked, markedToo] at both
          exact absurd (stops mark both) (apart second mark markedToo)
  | some mark =>
      cases markedToo : second.mark? with
      | none =>
          rw [marked, markedToo] at both
          exact absurd (stopsToo mark both.symm) (apart first mark marked)
      | some other =>
          rw [marked, markedToo] at both
          exact both

/-- The texts of terms behind others. -/
def further (terms : List Term) : List Char :=
  terms.flatMap (fun term => ',' :: ' ' :: term.text)

/--
The texts of terms with commas between them are the text of the first one, and
then each further one behind its comma.
-/
theorem commaSeparated_texts
    (first : Term)
    (rest : List Term) :
    commaSeparated (texts (first :: rest)) = first.text ++ further rest := by
  induction rest generalizing first with
  | nil => simp [commaSeparated, List.intercalate, further]
  | cons second rest hypothesis =>
      have shape : commaSeparated (texts (first :: second :: rest)) =
          first.text ++ ',' :: ' ' ::
            commaSeparated (texts (second :: rest)) := by
        simp [commaSeparated, List.intercalate]
      rw [shape, hypothesis]
      simp [further]

/--
Behind a term in a list stands a comma or the closing bracket, where a run of
word characters stops.
-/
theorem stops_further
    (terms : List Term)
    (brackets : Brackets)
    (rest : List Char) :
    Stops (further terms ++ brackets.closing :: rest) := by
  cases terms with
  | nil =>
      rintro _ ⟨⟩
      cases brackets <;> decide
  | cons first terms =>
      rintro _ ⟨⟩
      decide

/-- Between brackets a first term does not begin with the closing bracket. -/
theorem Clean.parts_ne_closing
    {term : Term}
    (clean : term.Clean)
    (terms : List Term)
    (brackets : Brackets)
    (rest others : List Char) :
    commaSeparated (texts (term :: terms)) ++ rest ≠
      brackets.closing :: others := by
  obtain ⟨character, behind, shape, opens⟩ := clean.exists_first
  rw [commaSeparated_texts, shape]
  intro same
  rw [(List.cons.inj same).1] at opens
  cases brackets <;> cases opens

/-- Terms between brackets may be read as terms behind another one. -/
theorem further_eq_of_parts
    {first second : List Term}
    (clean : ∀ term ∈ first, term.Clean)
    (cleanToo : ∀ term ∈ second, term.Clean)
    {brackets : Brackets}
    {rest others : List Char}
    (same :
      commaSeparated (texts first) ++ brackets.closing :: rest =
        commaSeparated (texts second) ++ brackets.closing :: others) :
    further first ++ brackets.closing :: rest =
      further second ++ brackets.closing :: others := by
  cases first with
  | nil =>
      cases second with
      | nil => exact same
      | cons other second =>
          exact ((List.forall_mem_cons.mp cleanToo).1.parts_ne_closing _ _ _ _
            same.symm).elim
  | cons term first =>
      cases second with
      | nil =>
          exact ((List.forall_mem_cons.mp clean).1.parts_ne_closing _ _ _
            _ same).elim
      | cons other second =>
          rw [commaSeparated_texts, commaSeparated_texts] at same
          simpa [further] using same

mutual

/-- What a term is and where it ends can be read off. -/
theorem text_append_inj
    {first second : Term}
    (clean : first.Clean)
    (cleanToo : second.Clean)
    {rest others : List Char}
    (stops : Stops rest)
    (stopsToo : Stops others)
    (same : first.text ++ rest = second.text ++ others) :
    first = second ∧ rest = others := by
  obtain ⟨leads, tails⟩ := lead_tail_of_text clean cleanToo stops stopsToo same
  have marks := mark?_eq_of_tail stops stopsToo tails
  cases first with
  | word text =>
      cases second with
      | word other => exact ⟨congrArg word leads, tails⟩
      | quoted | group | labelled => cases marks
  | quoted text =>
      cases second with
      | quoted other =>
          obtain ⟨rfl, ends⟩ := Text.quoted_append_inj tails
          exact ⟨rfl, ends⟩
      | group _ brackets =>
          cases brackets <;> simp [mark?, Brackets.opening] at marks
      | word | labelled => simp [mark?] at marks
  | group head brackets parts =>
      cases second with
      | group otherHead otherBrackets otherParts =>
          obtain rfl : head = otherHead := Head.spelling_injective leads
          obtain rfl : brackets = otherBrackets :=
            Brackets.opening_injective (Option.some_inj.mp marks)
          have inner : commaSeparated (texts parts) ++
              brackets.closing :: rest =
              commaSeparated (texts otherParts) ++ brackets.closing ::
                others := by
            simpa [tail] using tails
          cases clean with
          | group clean =>
              cases cleanToo with
              | group cleanToo =>
                  obtain ⟨rfl, ends⟩ :=
                    further_append_inj clean cleanToo
                      (further_eq_of_parts clean cleanToo inner)
                  exact ⟨rfl, ends⟩
      | word => cases marks
      | quoted | labelled =>
          cases brackets <;> simp [mark?, Brackets.opening] at marks
  | labelled label value =>
      cases second with
      | labelled otherLabel otherValue =>
          obtain rfl : label = otherLabel := leads
          have values : value.text ++ rest = otherValue.text ++ others := by
            rw [tail, tail, List.append_assoc, List.append_assoc] at tails
            exact List.append_cancel_left tails
          cases clean with
          | labelled _ clean =>
              cases cleanToo with
              | labelled _ cleanToo =>
                  obtain ⟨rfl, ends⟩ :=
                    text_append_inj clean cleanToo stops stopsToo values
                  exact ⟨rfl, ends⟩
      | group _ brackets =>
          cases brackets <;> simp [mark?, Brackets.opening] at marks
      | word | quoted => simp [mark?] at marks

/--
Lists of clean terms with the same text behind them are the same, and so is
what follows them.  The induction is on both lists; the closing bracket cannot
be taken for a comma.
-/
theorem further_append_inj
    {first second : List Term}
    (clean : ∀ term ∈ first, term.Clean)
    (cleanToo : ∀ term ∈ second, term.Clean)
    {brackets : Brackets}
    {rest others : List Char}
    (same :
      further first ++ brackets.closing :: rest =
        further second ++ brackets.closing :: others) :
    first = second ∧ rest = others := by
  cases first with
  | nil =>
      cases second with
      | nil => exact ⟨rfl, (List.cons.inj same).2⟩
      | cons => exact absurd (List.cons.inj same).1 brackets.closing_ne_comma
  | cons term first =>
      cases second with
      | nil =>
          exact absurd (List.cons.inj same).1.symm brackets.closing_ne_comma
      | cons other second =>
          rw [List.forall_mem_cons] at clean cleanToo
          have texts : term.text ++
              (further first ++ brackets.closing :: rest) =
              other.text ++ (further second ++ brackets.closing :: others) := by
            simpa [further] using same
          obtain ⟨rfl, later⟩ := text_append_inj clean.1 cleanToo.1
            (stops_further first brackets rest)
            (stops_further second brackets others) texts
          obtain ⟨rfl, ends⟩ := further_append_inj clean.2 cleanToo.2 later
          exact ⟨rfl, ends⟩

end

end Term

end Clipper.Outline
