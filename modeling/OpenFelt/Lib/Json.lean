/-
  OpenFelt.Lib.Json — values written as JSON, and read back off the front of a text.

  A `Codec` keeps a writer with its reader and the law between them: what was written is
  read back, whatever follows, unless it goes on with a number. Codecs are made of one
  another (numbers, texts, sequences, records by field, the names of an enumeration), so
  the codec of a type is a description of its JSON and nothing is proved of it again.
  A line that is one value is read as that value (`Codec.ofLine_write`), and different
  values have different lines (`Codec.write_injective`).
-/

import OpenFelt.Lib.Numerals

namespace OpenFelt

namespace Json

/-- What follows a value does not go on with a number. -/
def Ends (rest : List Char) : Prop := ∀ c tail, rest = c :: tail → c.isDigit = false

/-- A way to write values, and to read them back off the front of a text. -/
structure Codec (α : Type) where
  write : α → List Char
  read : List Char → Option (α × List Char)
  /-- The characters a value may start with. -/
  starts : Char → Bool
  opens : ∀ a, ∃ c tail, write a = c :: tail ∧ starts c = true
  reads : ∀ a rest, Ends rest → read (write a ++ rest) = some (a, rest)

/-- The fields of a record that are still to come, to its closing brace. -/
structure Fields (α : Type) where
  write : α → List Char
  read : List Char → Option (α × List Char)
  reads : ∀ a rest, read (write a ++ rest) = some (a, rest)

variable {α β : Type} {rest : List Char} {c : Char}

theorem ends_nil : Ends [] := fun _ _ h => by cases h

theorem ends_cons (h : c.isDigit = false) : Ends (c :: rest) := by
  intro d tail he
  obtain ⟨rfl, rfl⟩ := List.cons.inj he
  exact h

/-! ## A line -/

namespace Codec

/-- The value a line is. -/
def ofLine (codec : Codec α) (line : List Char) : Option α :=
  (codec.read line).bind fun found => if found.2.isEmpty then some found.1 else none

theorem ofLine_write (codec : Codec α) (a : α) : codec.ofLine (codec.write a) = some a := by
  have hread := codec.reads a [] ends_nil
  rw [List.append_nil] at hread
  rw [ofLine, hread]
  rfl

theorem write_injective (codec : Codec α) : Function.Injective codec.write := by
  intro a b h
  have hsame := congrArg codec.ofLine h
  rw [codec.ofLine_write, codec.ofLine_write] at hsame
  exact Option.some.inj hsame

/-- The values of a type that go to another and come back. -/
def via (codec : Codec β) (f : α → β) (g : β → Option α) (h : ∀ a, g (f a) = some a) : Codec α where
  write a := codec.write (f a)
  read l := (codec.read l).bind fun found => (g found.1).map fun a => (a, found.2)
  starts := codec.starts
  opens a := codec.opens (f a)
  reads a rest hrest := by rw [codec.reads _ _ hrest, Option.bind_some, h, Option.map_some]

end Codec

/-! ## Fixed texts -/

/-- What follows a fixed text. -/
def expect : List Char → List Char → Option (List Char)
  | [], l => some l
  | c :: text, d :: l => if c = d then expect text l else none
  | _ :: _, [] => none

@[simp] theorem expect_append (text rest : List Char) : expect text (text ++ rest) = some rest := by
  induction text with
  | nil => rfl
  | cons c text ih => rw [List.cons_append, expect, if_pos rfl, ih]

theorem expect_cons_ne {d : Char} {text l : List Char} (h : c ≠ d) : expect (c :: text) (d :: l) = none := by
  rw [expect, if_neg h]

/-! ## Repetition -/

section repetition
variable {item : List Char → Option (α × List Char)} {write : α → List Char} {close : Char}

/-- Items up to the character that closes them. -/
def readMany (item : List Char → Option (α × List Char)) (close : Char) : Nat → List Char → Option (List α × List Char)
  | 0, _ => none
  | fuel + 1, l =>
    if l.head? = some close then some ([], l.tail)
    else (item l).bind fun found => (readMany item close fuel found.2).map fun more => (found.1 :: more.1, more.2)

/-- As many items as there is fuel for are read back, if none of them starts as the close does. -/
theorem readMany_write (hitem : ∀ (a : α) (as : List α), item (write a ++ (as.flatMap write ++ close :: rest)) =
      some (a, as.flatMap write ++ close :: rest))
    (hopens : ∀ a, ∃ c tail, write a = c :: tail ∧ c ≠ close) (as : List α) (fuel : Nat) (hfuel : as.length < fuel) :
    readMany item close fuel (as.flatMap write ++ close :: rest) = some (as, rest) := by
  induction as generalizing fuel with
  | nil =>
    obtain ⟨fuel, rfl⟩ := Nat.exists_eq_add_of_lt hfuel
    simp [readMany]
  | cons a as ih =>
    obtain ⟨fuel, rfl⟩ : ∃ n, fuel = n + 1 := ⟨fuel - 1, by omega⟩
    obtain ⟨c, tail, hwrite, hne⟩ := hopens a
    have hhead : ¬(write a ++ (as.flatMap write ++ close :: rest)).head? = some close := by
      rw [hwrite]
      simpa using hne
    rw [List.flatMap_cons, List.append_assoc, readMany, if_neg hhead, hitem, Option.bind_some,
      ih fuel (by rw [List.length_cons] at hfuel; omega), Option.map_some]

/-- Items that are at least a character each are no more than their text has. -/
theorem length_le_flatMap (hopens : ∀ a, ∃ c tail, write a = c :: tail ∧ c ≠ close) (as : List α) :
    as.length ≤ (as.flatMap write).length := by
  induction as with
  | nil => exact Nat.le_refl 0
  | cons a as ih =>
    obtain ⟨c, tail, hwrite, _⟩ := hopens a
    rw [List.flatMap_cons, List.length_append, hwrite, List.length_cons, List.length_cons]
    omega

/-- A text has fuel for its own items. -/
theorem readMany_length (hitem : ∀ (a : α) (as : List α), item (write a ++ (as.flatMap write ++ close :: rest)) =
      some (a, as.flatMap write ++ close :: rest))
    (hopens : ∀ a, ∃ c tail, write a = c :: tail ∧ c ≠ close) (as : List α) :
    readMany item close (as.flatMap write ++ close :: rest).length (as.flatMap write ++ close :: rest) = some (as, rest) := by
  refine readMany_write hitem hopens as _ ?_
  have hle := length_le_flatMap hopens as
  rw [List.length_append, List.length_cons]
  omega

end repetition

namespace Codec

/-! ## Numbers and truth values -/

/-- A number in decimal. -/
def natural : Codec Nat where
  write n := Nat.toDigits 10 n
  read l :=
    if (l.takeWhile Char.isDigit).isEmpty then none
    else some (Nat.ofDigitChars 10 (l.takeWhile Char.isDigit) 0, l.dropWhile Char.isDigit)
  starts := Char.isDigit
  opens n := by
    cases hdigits : Nat.toDigits 10 n with
    | nil => exact absurd hdigits Nat.toDigits_ne_nil
    | cons c tail =>
      refine ⟨c, tail, rfl, ?_⟩
      have hmem : c ∈ Nat.toDigits 10 n := hdigits ▸ List.mem_cons_self
      exact Nat.isDigit_of_mem_toDigits (by decide) (by decide) hmem
  reads n rest hrest := by
    have hdigits : ∀ c ∈ Nat.toDigits 10 n, c.isDigit = true := fun c hc =>
      Nat.isDigit_of_mem_toDigits (by decide) (by decide) hc
    have htake : (Nat.toDigits 10 n ++ rest).takeWhile Char.isDigit = Nat.toDigits 10 n := by
      rw [List.takeWhile_append_of_pos hdigits]
      cases rest with
      | nil => simp
      | cons c tail => rw [List.takeWhile_cons_of_neg (by simp [hrest c tail rfl]), List.append_nil]
    have hdrop : (Nat.toDigits 10 n ++ rest).dropWhile Char.isDigit = rest := by
      rw [List.dropWhile_append_of_pos hdigits]
      cases rest with
      | nil => simp
      | cons c tail => rw [List.dropWhile_cons_of_neg (by simp [hrest c tail rfl])]
    rw [htake, hdrop, if_neg (by simp [Nat.toDigits_ne_nil]), Nat.ofDigitChars_ten_toDigits]

def boolean : Codec Bool where
  write b := if b then ['t', 'r', 'u', 'e'] else ['f', 'a', 'l', 's', 'e']
  read l := ((expect ['t', 'r', 'u', 'e'] l).map fun rest => (true, rest)).or
    ((expect ['f', 'a', 'l', 's', 'e'] l).map fun rest => (false, rest))
  starts c := c = 't' || c = 'f'
  opens b := by
    cases b
    · exact ⟨'f', ['a', 'l', 's', 'e'], rfl, rfl⟩
    · exact ⟨'t', ['r', 'u', 'e'], rfl, rfl⟩
  reads b rest _ := by
    cases b
    · rw [if_neg Bool.false_ne_true, expect_append]
      rfl
    · rw [if_pos rfl, expect_append]
      rfl

/-! ## Texts -/

/-- A character inside a text. -/
def escape (c : Char) : List Char :=
  if c = '"' then ['\\', '"']
  else if c = '\\' then ['\\', '\\']
  else if c.toNat = 8 then ['\\', 'b']
  else if c.toNat = 12 then ['\\', 'f']
  else if c = '\n' then ['\\', 'n']
  else if c = '\r' then ['\\', 'r']
  else if c = '\t' then ['\\', 't']
  else if c.toNat < 32 then ['\\', 'u', '0', '0', Nat.digitChar (c.toNat / 16), Nat.digitChar (c.toNat % 16)]
  else [c]

def hexValue (c : Char) : Nat := if c.isDigit then c.toNat - 48 else c.toNat - 87

/-- What follows a backslash. -/
def readEscaped : List Char → Option (Char × List Char)
  | 'u' :: '0' :: '0' :: a :: b :: rest => some (Char.ofNat (16 * hexValue a + hexValue b), rest)
  | 'b' :: rest => some (Char.ofNat 8, rest)
  | 'f' :: rest => some (Char.ofNat 12, rest)
  | 'n' :: rest => some ('\n', rest)
  | 'r' :: rest => some ('\r', rest)
  | 't' :: rest => some ('\t', rest)
  | '"' :: rest => some ('"', rest)
  | '\\' :: rest => some ('\\', rest)
  | _ => none

def readChar : List Char → Option (Char × List Char)
  | [] => none
  | c :: rest => if c = '\\' then readEscaped rest else some (c, rest)

theorem hexValue_digits : ∀ n < 32, 16 * hexValue (Nat.digitChar (n / 16)) + hexValue (Nat.digitChar (n % 16)) = n := by decide

theorem readChar_escape (c : Char) (rest : List Char) : readChar (escape c ++ rest) = some (c, rest) := by
  unfold escape
  split
  · subst c
    rfl
  split
  · subst c
    rfl
  split
  · rename_i h
    rw [← Char.ofNat_toNat c, h]
    rfl
  split
  · rename_i h
    rw [← Char.ofNat_toNat c, h]
    rfl
  split
  · subst c
    rfl
  split
  · subst c
    rfl
  split
  · subst c
    rfl
  split
  · rename_i h
    show some (Char.ofNat (16 * hexValue (Nat.digitChar (c.toNat / 16)) + hexValue (Nat.digitChar (c.toNat % 16))), rest) = _
    rw [hexValue_digits _ h, Char.ofNat_toNat]
  · rename_i hne _ _ _ _ _ _
    rw [List.singleton_append, readChar, if_neg hne]

theorem escape_opens (c : Char) : ∃ d tail, escape c = d :: tail ∧ d ≠ '"' := by
  unfold escape
  repeat' split
  all_goals first
    | exact ⟨_, _, rfl, by decide⟩
    | exact ⟨_, _, rfl, by assumption⟩

def text : Codec String where
  write s := '"' :: (s.toList.flatMap escape ++ ['"'])
  read l := (expect ['"'] l).bind fun rest =>
    (readMany readChar '"' rest.length rest).map fun found => (String.ofList found.1, found.2)
  starts c := c = '"'
  opens s := ⟨'"', _, rfl, rfl⟩
  reads s rest _ := by
    have hopen : expect ['"'] ('"' :: (s.toList.flatMap escape ++ ['"']) ++ rest) =
        some (s.toList.flatMap escape ++ '"' :: rest) := by
      rw [List.cons_append, List.append_assoc]
      rfl
    rw [hopen, Option.bind_some, readMany_length (fun a as => readChar_escape a _) escape_opens, Option.map_some,
      String.ofList_toList]

/-- The names of an enumeration. -/
def enumeration (name : α → String) (all : List α) (h : ∀ a, all.find? (fun b => name b = name a) = some a) : Codec α :=
  text.via name (fun s => all.find? fun b => name b = s) h

/-! ## Sequences, options and pairs -/

section sequences
variable (codec : Codec α)

/-- A value of a sequence after its first. -/
def readNext (l : List Char) : Option (α × List Char) := (expect [','] l).bind codec.read

theorem readNext_write (h : Ends rest) (a : α) : codec.readNext (',' :: codec.write a ++ rest) = some (a, rest) := by
  show codec.read (codec.write a ++ rest) = _
  exact codec.reads a rest h

def sequence (h : codec.starts ']' = false) : Codec (List α) where
  write
    | [] => ['[', ']']
    | a :: as => '[' :: (codec.write a ++ (as.flatMap (fun b => ',' :: codec.write b) ++ [']']))
  read l := (expect ['['] l).bind fun rest =>
    if rest.head? = some ']' then some ([], rest.tail)
    else (codec.read rest).bind fun found =>
      (readMany codec.readNext ']' found.2.length found.2).map fun more => (found.1 :: more.1, more.2)
  starts c := c = '['
  opens as := by
    cases as
    · exact ⟨'[', _, rfl, rfl⟩
    · exact ⟨'[', _, rfl, rfl⟩
  reads as rest _ := by
    cases as with
    | nil => rfl
    | cons a as =>
      have hopen : expect ['['] ('[' :: (codec.write a ++ (as.flatMap (fun b => ',' :: codec.write b) ++ [']'])) ++ rest) =
          some (codec.write a ++ (as.flatMap (fun b => ',' :: codec.write b) ++ ']' :: rest)) := by
        rw [List.cons_append, List.append_assoc, List.append_assoc]
        rfl
      have hends : ∀ as : List α, Ends (as.flatMap (fun b => ',' :: codec.write b) ++ ']' :: rest) := by
        intro as
        cases as with
        | nil => exact ends_cons (by decide)
        | cons b as => exact ends_cons (by decide)
      obtain ⟨c, tail, hwrite, hstarts⟩ := codec.opens a
      have hhead : ¬(codec.write a ++ (as.flatMap (fun b => ',' :: codec.write b) ++ ']' :: rest)).head? = some ']' := by
        rw [hwrite]
        intro he
        have hc : c = ']' := Option.some.inj he
        rw [hc, h] at hstarts
        cases hstarts
      rw [hopen, Option.bind_some, if_neg hhead, codec.reads _ _ (hends as), Option.bind_some,
        readMany_length (fun b bs => codec.readNext_write (hends bs) b) (fun b => ⟨',', _, rfl, by decide⟩), Option.map_some]

def optional (h : codec.starts 'n' = false) : Codec (Option α) where
  write
    | none => ['n', 'u', 'l', 'l']
    | some a => codec.write a
  read l := ((expect ['n', 'u', 'l', 'l'] l).map fun rest => (none, rest)).or
    ((codec.read l).map fun found => (some found.1, found.2))
  starts c := c = 'n' || codec.starts c
  opens a := by
    cases a with
    | none => exact ⟨'n', ['u', 'l', 'l'], rfl, rfl⟩
    | some a =>
      obtain ⟨c, tail, hwrite, hstarts⟩ := codec.opens a
      exact ⟨c, tail, hwrite, by rw [hstarts, Bool.or_true]⟩
  reads a rest hrest := by
    cases a with
    | none => rfl
    | some a =>
      obtain ⟨c, tail, hwrite, hstarts⟩ := codec.opens a
      have hnull : expect ['n', 'u', 'l', 'l'] (codec.write a ++ rest) = none := by
        rw [hwrite]
        refine expect_cons_ne ?_
        intro hc
        rw [← hc, h] at hstarts
        cases hstarts
      show ((expect ['n', 'u', 'l', 'l'] (codec.write a ++ rest)).map fun rest => (none, rest)).or
        ((codec.read (codec.write a ++ rest)).map fun found => (some found.1, found.2)) = some (some a, rest)
      rw [hnull, codec.reads a rest hrest]
      rfl

/-- Two values between brackets. -/
def bracketed (left middle right : Char) (hmiddle : middle.isDigit = false) (hright : right.isDigit = false)
    (codec' : Codec β) : Codec (α × β) where
  write x := left :: (codec.write x.1 ++ middle :: (codec'.write x.2 ++ [right]))
  read l := (expect [left] l).bind fun rest => (codec.read rest).bind fun first =>
    (expect [middle] first.2).bind fun rest => (codec'.read rest).bind fun second =>
      (expect [right] second.2).map fun rest => ((first.1, second.1), rest)
  starts c := c = left
  opens x := ⟨left, _, rfl, decide_eq_true rfl⟩
  reads x rest _ := by
    have hfirst : expect [left] (left :: (codec.write x.1 ++ middle :: (codec'.write x.2 ++ [right])) ++ rest) =
        some (codec.write x.1 ++ middle :: (codec'.write x.2 ++ right :: rest)) := by
      rw [List.cons_append, List.append_assoc, List.cons_append, List.append_assoc, List.singleton_append]
      exact expect_append [left] _
    have hnext : ∀ (c : Char) (l : List Char), expect [c] (c :: l) = some l := fun c l => expect_append [c] l
    rw [hfirst, Option.bind_some, codec.reads _ _ (ends_cons hmiddle), Option.bind_some, hnext, Option.bind_some,
      codec'.reads _ _ (ends_cons hright), Option.bind_some, hnext, Option.map_some]

/-- A sequence of two. -/
def pair (codec' : Codec β) : Codec (α × β) := codec.bracketed '[' ',' ']' rfl rfl codec'

/-- A record of one field, whose name is part of the value. -/
def entry : Codec (String × α) := text.bracketed '\x7b' ':' '\x7d' rfl rfl codec

/-- One of two types, told apart by the first character. -/
def either (codec' : Codec β) (h : ∀ c, codec.starts c = true → codec'.starts c = false) : Codec (α ⊕ β) where
  write
    | .inl a => codec.write a
    | .inr b => codec'.write b
  read l :=
    if l.head?.any codec'.starts then (codec'.read l).map fun found => (.inr found.1, found.2)
    else (codec.read l).map fun found => (.inl found.1, found.2)
  starts c := codec.starts c || codec'.starts c
  opens x := by
    cases x with
    | inl a =>
      obtain ⟨c, tail, hwrite, hstarts⟩ := codec.opens a
      exact ⟨c, tail, hwrite, by rw [hstarts, Bool.true_or]⟩
    | inr b =>
      obtain ⟨c, tail, hwrite, hstarts⟩ := codec'.opens b
      exact ⟨c, tail, hwrite, by rw [hstarts, Bool.or_true]⟩
  reads x rest hrest := by
    cases x with
    | inl a =>
      dsimp only
      obtain ⟨c, tail, hwrite, hstarts⟩ := codec.opens a
      have hnot : ¬(codec.write a ++ rest).head?.any codec'.starts = true := by
        rw [hwrite]
        simp [h c hstarts]
      rw [if_neg hnot, codec.reads a rest hrest]
      rfl
    | inr b =>
      dsimp only
      obtain ⟨c, tail, hwrite, hstarts⟩ := codec'.opens b
      have hin : (codec'.write b ++ rest).head?.any codec'.starts = true := by
        rw [hwrite]
        simpa using hstarts
      rw [if_pos hin, codec'.reads b rest hrest]
      rfl

end sequences

end Codec

/-! ## Records -/

/-- A field's name, which has nothing to escape. -/
def header (name : String) : List Char := '"' :: (name.toList ++ ['"', ':'])

namespace Fields

/-- The last field. -/
def last (name : String) (codec : Codec α) : Fields α where
  write a := header name ++ (codec.write a ++ ['\x7d'])
  read l := (expect (header name) l).bind fun rest => (codec.read rest).bind fun found =>
    (expect ['\x7d'] found.2).map fun rest => (found.1, rest)
  reads a rest := by
    rw [List.append_assoc, expect_append, Option.bind_some, List.append_assoc, List.singleton_append,
      codec.reads _ _ (ends_cons (by decide))]
    rfl

/-- A field and those after it. -/
def more (name : String) (codec : Codec α) (fields : Fields β) : Fields (α × β) where
  write x := header name ++ (codec.write x.1 ++ ',' :: fields.write x.2)
  read l := (expect (header name) l).bind fun rest => (codec.read rest).bind fun first =>
    (expect [','] first.2).bind fun rest => (fields.read rest).map fun second => ((first.1, second.1), second.2)
  reads x rest := by
    rw [List.append_assoc, expect_append, Option.bind_some, List.append_assoc, List.cons_append,
      codec.reads _ _ (ends_cons (by decide))]
    show (fields.read (fields.write x.2 ++ rest)).map _ = _
    rw [fields.reads]
    rfl

/-- A field and a last one that is left out where there is no value. -/
def lastSome (name : String) (codec : Codec α) (name' : String) (codec' : Codec β) : Fields (α × Option β) where
  write x := header name ++ (codec.write x.1 ++ (x.2.elim ['\x7d'] fun b => ',' :: (last name' codec').write b))
  read l := (expect (header name) l).bind fun rest => (codec.read rest).bind fun first =>
    if first.2.head? = some '\x7d' then some ((first.1, none), first.2.tail)
    else (expect [','] first.2).bind fun rest =>
      ((last name' codec').read rest).map fun second => ((first.1, some second.1), second.2)
  reads x rest := by
    obtain ⟨a, b⟩ := x
    rw [List.append_assoc, expect_append, Option.bind_some, List.append_assoc]
    cases b with
    | none =>
      rw [Option.elim_none, List.singleton_append, codec.reads _ _ (ends_cons (by decide))]
      rfl
    | some b =>
      rw [Option.elim_some, List.cons_append, codec.reads _ _ (ends_cons (by decide))]
      show ((last name' codec').read ((last name' codec').write b ++ rest)).map _ = _
      rw [(last name' codec').reads]
      rfl

/-- The record of these fields. -/
def record (fields : Fields α) : Codec α where
  write a := '\x7b' :: fields.write a
  read l := (expect ['\x7b'] l).bind fields.read
  starts c := c = '\x7b'
  opens a := ⟨'\x7b', _, rfl, rfl⟩
  reads a rest _ := by
    show fields.read (fields.write a ++ rest) = _
    exact fields.reads a rest

end Fields

end Json

end OpenFelt
