import UringServer.Web.HeaderBlock

/-!
# Header blocks that are written line by line

The lines of a text that has been put together from lines, where such a header
block ends, and the fields it has. A field line is written by `headerLine` from
a name without a colon.
-/

namespace UringServer.Web

open UringServer.Semantics

/-- A text without a line break. -/
def OneLine (line : Text) : Prop := splitLines line = [line]

instance (line : Text) : Decidable (OneLine line) := inferInstanceAs (Decidable (_ = _))

theorem splitLines_break (rest : Text) :
    splitLines (0x0D :: 0x0A :: rest) = [] :: splitLines rest :=
  rfl

/-- A byte that starts no line break is the first of its line. -/
theorem splitLines_cons {byte : UInt8} {rest line : Text} {lines : List Text}
    (notBreak : ∀ after, byte = 0x0D → rest = 0x0A :: after → False)
    (more : splitLines rest = line :: lines) :
    splitLines (byte :: rest) = (byte :: line) :: lines := by
  rw [splitLines, more]
  exact notBreak

theorem splitLines_ne_nil (text : Text) : splitLines text ≠ [] := by
  induction text using splitLines.induct with
  | case1 => nofun
  | case2 rest ih =>
    rw [splitLines_break]
    nofun
  | case3 byte rest notBreak none ih => exact absurd none ih
  | case4 byte rest notBreak line lines more ih =>
    rw [splitLines_cons notBreak more]
    nofun

/-- A line break ends the lines before it. -/
theorem splitLines_append (text rest : Text) :
    splitLines (text ++ crlf ++ rest) = splitLines text ++ splitLines rest := by
  induction text using splitLines.induct with
  | case1 => rfl
  | case2 text ih =>
    change [] :: splitLines (text ++ crlf ++ rest) = _
    rw [ih]
    rfl
  | case3 byte text notBreak none => exact absurd none (splitLines_ne_nil text)
  | case4 byte text notBreak line lines more ih =>
    -- The byte starts no line break, also when it is the last one before `crlf`.
    have stillNot : ∀ after, byte = 0x0D → text ++ crlf ++ rest = 0x0A :: after → False := by
      intro after isReturn breaks
      cases text with
      | nil => cases breaks
      | cons next text => exact notBreak text isReturn (by cases breaks; rfl)
    rw [more] at ih
    rw [List.cons_append, List.cons_append, splitLines_cons stillNot ih,
      splitLines_cons notBreak more]
    rfl

theorem OneLine.splitLines_append {line : Text} (oneLine : OneLine line) (rest : Text) :
    splitLines (line ++ crlf ++ rest) = line :: splitLines rest := by
  rw [Web.splitLines_append, oneLine]
  rfl

theorem oneLine_iff {text : Text} : OneLine text ↔ ¬ crlf <:+: text := by
  unfold OneLine
  induction text using splitLines.induct with
  | case1 => decide
  | case2 rest ih =>
    refine iff_of_false ?_ (not_not.mpr ⟨[], rest, rfl⟩)
    rw [splitLines_break]
    nofun
  | case3 byte rest notBreak none => exact absurd none (splitLines_ne_nil rest)
  | case4 byte rest notBreak line lines more ih =>
    have starts : ¬ crlf <+: byte :: rest := by
      rintro ⟨after, whole⟩
      cases whole
      exact notBreak after rfl rfl
    rw [splitLines_cons notBreak more, List.infix_cons_iff, not_or, ← ih, more,
      List.cons.injEq, List.cons.injEq, List.cons.injEq]
    simp [starts]

/-- No byte is a carriage return. -/
theorem oneLine_of_not_mem {text : Text} (none : 0x0D ∉ text) : OneLine text :=
  oneLine_iff.mpr fun occurs => none (occurs.subset (by decide))

/-- A byte that is in no line break separates. -/
theorem oneLine_append_cons {separator : UInt8} (notReturn : separator ≠ 0x0D)
    (notFeed : separator ≠ 0x0A) {first second : Text} :
    OneLine (first ++ separator :: second) ↔ OneLine first ∧ OneLine second := by
  rw [oneLine_iff, oneLine_iff, oneLine_iff, ← not_or, not_iff_not]
  have bytes : crlf = [0x0D, 0x0A] := rfl
  constructor
  · rintro ⟨before, after, whole⟩
    rw [List.append_assoc, bytes, List.append_eq_append_iff] at whole
    rcases whole with ⟨middle, rfl, whole⟩ | ⟨middle, rfl, whole⟩
    · rcases middle with _ | ⟨one, _ | ⟨two, middle⟩⟩
      · exact absurd (List.cons.inj whole).1.symm notReturn
      · exact absurd (List.cons.inj (List.cons.inj whole).2).1.symm notFeed
      · simp only [List.cons_append, List.nil_append, List.cons.injEq] at whole
        obtain ⟨rfl, rfl, -⟩ := whole
        exact .inl ⟨before, middle, List.append_assoc ..⟩
    · rcases middle with _ | ⟨one, middle⟩
      · exact absurd (List.cons.inj whole).1 notReturn
      · obtain ⟨-, rfl⟩ := List.cons.inj whole
        exact .inr ⟨middle, after, List.append_assoc ..⟩
  · rintro (occurs | occurs)
    · exact occurs.trans (List.prefix_append ..).isInfix
    · exact occurs.trans ((List.suffix_cons ..).trans (List.suffix_append ..)).isInfix

/-- A header block without an empty line after its first ends where it is terminated. -/
theorem terminated_of_lines {head : Text} (filled : [] ∉ (splitLines head).tail) :
    FirstAt headerTerminator (head ++ headerTerminator) head.length := by
  have bytes : headerTerminator = 0x0D :: 0x0A :: crlf := rfl
  have breakBytes : crlf = [0x0D, 0x0A] := rfl
  induction head using splitLines.induct with
  | case1 => exact ⟨List.prefix_refl _, nofun⟩
  | case2 rest ih =>
    rw [splitLines_break, List.tail_cons] at filled
    -- A line break at once would be an empty line.
    have starts : ¬ crlf <+: rest ++ headerTerminator := by
      rw [breakBytes]
      rcases rest with _ | ⟨one, _ | ⟨two, rest⟩⟩
      · exact absurd (by decide) filled
      · simp [bytes]
      · simp only [List.cons_append, List.cons_prefix_cons, List.nil_prefix, and_true]
        rintro ⟨rfl, rfl⟩
        exact filled (List.mem_cons_self ..)
    have later := ih fun empty => filled (List.mem_of_mem_tail empty)
    refine .cons ?_ (.cons ?_ later)
    · intro whole
      rw [bytes, List.cons_prefix_cons] at whole
      exact starts (List.cons_prefix_cons.mp whole.2).2
    · rw [bytes, List.cons_prefix_cons]
      exact fun both => absurd both.1 (by decide)
  | case3 byte rest notBreak none => exact absurd none (splitLines_ne_nil rest)
  | case4 byte rest notBreak line lines more ih =>
    rw [splitLines_cons notBreak more] at filled
    refine .cons ?_ (ih (by rw [more]; exact filled))
    rw [bytes, List.cons_prefix_cons]
    rintro ⟨rfl, starts⟩
    cases rest with
    | nil => exact absurd starts (by decide)
    | cons next rest =>
      obtain ⟨rfl, -⟩ := List.cons_prefix_cons.mp starts
      exact notBreak rest rfl rfl

/-- The text of lines that each end in a line break. -/
def unlines (lines : List Text) : Text := lines.flatMap (· ++ crlf)

/-- A stream that is written as lines, an empty line and what follows. -/
theorem exists_headedStream (first : Text) (fields : List Text) (rest : Text)
    (oneLine : ∀ line ∈ first :: fields, OneLine line) (filled : [] ∉ fields) :
    ∃ stream : HeadedStream, stream.bytes = unlines (first :: fields) ++ crlf ++ rest ∧
      splitLines stream.head = first :: fields ∧ stream.rest = rest := by
  obtain ⟨head, whole, lines⟩ : ∃ head, unlines (first :: fields) = head ++ crlf ∧
      splitLines head = first :: fields := by
    clear filled
    induction fields generalizing first with
    | nil => exact ⟨first, List.append_nil _, oneLine first (List.mem_cons_self ..)⟩
    | cons second fields ih =>
      obtain ⟨head, whole, lines⟩ := ih second fun line member =>
        oneLine line (List.mem_cons_of_mem _ member)
      refine ⟨first ++ crlf ++ head, ?_, ?_⟩
      · change first ++ crlf ++ unlines (second :: fields) = _
        rw [whole, ← List.append_assoc]
      · rw [(oneLine first (List.mem_cons_self ..)).splitLines_append, lines]
  refine ⟨⟨head, rest, terminated_of_lines (by rw [lines]; exact filled)⟩, ?_, lines, rfl⟩
  change head ++ (crlf ++ crlf) ++ rest = _
  rw [whole, ← List.append_assoc]

/-- A byte of a token. -/
def isTokenByte (byte : UInt8) : Bool :=
  isDigit byte || (0x41 ≤ byte && byte ≤ 0x5A) || (0x61 ≤ byte && byte ≤ 0x7A) ||
    (ascii "!#$%&'*+-.^_`|~").contains byte

/-- The name of a field. -/
def isToken (name : Text) : Bool := !name.isEmpty && name.all isTokenByte

/-- A field as `headerLine` writes it, without the line break. -/
def fieldText (header : Text × Text) : Text := header.1 ++ ascii ": " ++ header.2

theorem headerLine_eq (name value : Text) :
    headerLine name value = fieldText (name, value) ++ crlf :=
  rfl

/-- The line of a field can be read again. -/
structure IsField (header : Text × Text) : Prop where
  noColon : 0x3A ∉ header.1
  name : OneLine header.1
  value : OneLine header.2

section Field

variable {header : Text × Text}

theorem noColon_of_isToken {name : Text} (token : isToken name = true) :
    0x3A ∉ name ∧ 0x0D ∉ name := by
  have bytes := List.all_eq_true.mp (Bool.and_eq_true_iff.mp token).2
  exact ⟨fun member => absurd (bytes _ member) (by decide),
    fun member => absurd (bytes _ member) (by decide)⟩

/-- A field with a proper name. -/
theorem IsField.ofToken {name value : Text} (token : isToken name = true)
    (oneLine : OneLine value) : IsField (name, value) :=
  ⟨(noColon_of_isToken token).1, oneLine_of_not_mem (noColon_of_isToken token).2, oneLine⟩

theorem return_not_mem_decimal (value : Nat) : 0x0D ∉ decimal value := fun member =>
  absurd (digit_of_mem_decimal member).1 (by decide)

theorem fieldText_ne_nil (header : Text × Text) : fieldText header ≠ [] := by
  simp [fieldText, ascii]

theorem colon_mem_fieldText (header : Text × Text) : 0x3A ∈ fieldText header :=
  List.mem_append_left _ (List.mem_append_right _ (by decide))

theorem fieldText_eq (header : Text × Text) :
    fieldText header = header.1 ++ 0x3A :: ([] ++ 0x20 :: header.2) :=
  List.append_assoc ..

theorem IsField.oneLine (isField : IsField header) : OneLine (fieldText header) := by
  rw [fieldText_eq, oneLine_append_cons (by decide) (by decide),
    oneLine_append_cons (by decide) (by decide)]
  exact ⟨isField.name, by decide, isField.value⟩

theorem IsField.notColon (isField : IsField header) :
    ∀ byte ∈ header.1, decide (byte ≠ 0x3A) = true := by
  intro byte member
  rw [decide_eq_true_iff]
  rintro rfl
  exact isField.noColon member

theorem IsField.takeWhile (isField : IsField header) :
    (fieldText header).takeWhile (· ≠ 0x3A) = header.1 := by
  rw [fieldText_eq]
  exact takeWhile_append_of_boundary isField.notColon (by simp)

theorem IsField.dropWhile (isField : IsField header) :
    (fieldText header).dropWhile (· ≠ 0x3A) = 0x3A :: 0x20 :: header.2 := by
  rw [fieldText_eq]
  exact dropWhile_append_of_boundary isField.notColon (by simp)

end Field

/-- Bytes have one header block. -/
theorem HeadedStream.unique {one other : HeadedStream} (same : one.bytes = other.bytes) :
    one.head = other.head ∧ one.rest = other.rest := by
  have firstOne := one.terminated.append (by decide) one.rest
  have firstOther := other.terminated.append (by decide) other.rest
  have length : one.head.length = other.head.length :=
    FirstAt.unique (same ▸ firstOne : FirstAt headerTerminator other.bytes _) firstOther
  rw [HeadedStream.bytes, HeadedStream.bytes, List.append_assoc, List.append_assoc] at same
  obtain ⟨heads, rests⟩ := List.append_inj same length
  exact ⟨heads, (List.append_inj rests rfl).2⟩

end UringServer.Web
