import FieldGraph.Proofs.Statement.Numbers
import FieldGraph.Proofs.Statement.Offsets

/-!
# Lexing by byte offsets

A lexer that works out by hand at which byte a token ends, and cuts its text out of the statement.
A cut that is no cut is a miss, and so is a number that cannot be read. The lexer never misses, and
it finds the tokens of the statement.
-/
namespace FieldGraph

structure Mark where
  token : Option Token
  position : Nat

namespace ByteLexer

abbrev Chars := List (Nat × Char)

def chars (start : Nat) : List Char → Chars
  | [] => []
  | c :: rest => (start, c) :: chars (start + c.utf8Size) rest

/-- The offset after digits, of which the last so far ends at `stop`. -/
def digitsEnd (stop : Nat) : Chars → Nat × Chars
  | [] => (stop, [])
  | (i, c) :: rest => if c.isDigit then digitsEnd (i + 1) rest else (stop, (i, c) :: rest)

def exponentEnd (stop : Nat) : Chars → Nat × Chars
  | (i, '+') :: rest => digitsEnd (i + 1) rest
  | (i, '-') :: rest => digitsEnd (i + 1) rest
  | rest => digitsEnd stop rest

def digitFollows? (source : List Char) (i : Nat) : Option Bool :=
  (from? source i).map Numeral.startsWithDigit

def exponentFollows? (source : List Char) (i : Nat) : Option Bool :=
  (from? source i).map fun rest => Numeral.startsWithDigit (Numeral.spanSign rest).2

def numberEnd? (source : List Char) (stop : Nat) (isFloat : Bool) :
    Chars → Option (Nat × Bool × Chars)
  | [] => some (stop, isFloat, [])
  | (i, c) :: rest =>
    if c.isDigit then numberEnd? source (i + 1) isFloat rest
    else if c == '.' && !isFloat then do
      if ← digitFollows? source (i + 1) then numberEnd? source (i + 1) true rest
      else return (stop, isFloat, (i, c) :: rest)
    else if c == 'e' || c == 'E' then do
      if ← exponentFollows? source (i + 1) then
        let (stop, rest) := exponentEnd stop rest
        return (stop, true, rest)
      else
        return (stop, isFloat, (i, c) :: rest)
    else some (stop, isFloat, (i, c) :: rest)

def number (source : List Char) (start : Nat) (rest : Chars) : Checked (Token × Chars) := do
  let (stop, isFloat, rest) ← numberEnd? source (start + 1) false rest
  let text ← between? source start stop
  if isFloat then
    let x ← Numeral.binary64? text
    return (.float x, rest)
  else
    match Numeral.int64? text with
    | some n => return (.integer n, rest)
    | none => throw ⟨.integerOutOfRange (String.ofList text), start⟩

/-- The offset of the last character of a word, which is at `last` so far. -/
def wordEnd (last : Nat) : Chars → Nat × Chars
  | [] => (last, [])
  | (i, c) :: rest =>
    if Text.continuesIdentifier c then wordEnd i rest else (last, (i, c) :: rest)

def word (source : List Char) (start : Nat) (rest : Chars) : Checked (Token × Chars) := do
  let (last, rest) := wordEnd start rest
  let tail ← from? source last
  let width := (tail.head?.map Char.utf8Size).getD 0
  let name ← between? source start (last + width)
  return (.ofWord name, rest)

/-- What is read without offsets: a token, and how many characters it takes with its first. -/
def ofScan (start : Nat) (rest : Chars) : Lexer.Scan → Checked (Token × Chars)
  | .ok (t, n) => return (t, rest.drop (n - 1))
  | .error fault => throw ⟨fault, start⟩

def token (source : List Char) (start : Nat) (c : Char) (rest : Chars) : Checked (Token × Chars) :=
  if c == '\'' || c == '\x22' then ofScan start rest (Lexer.string c (rest.map Prod.snd))
  else if c == '\x60' then ofScan start rest (Lexer.quotedIdentifier (rest.map Prod.snd))
  else if c.isDigit then number source start rest
  else if Text.startsIdentifier c then word source start rest
  else ofScan start rest (Lexer.sign c (rest.map Prod.snd))

/-- The tokens of what is left of a text, and its end. More tokens than the limit are a miss. -/
def marks (source : List Char) : Nat → Chars → Checked (List Mark)
  | 0, _ => miss
  | limit + 1, rest =>
    match rest.dropWhile (fun x => Text.isBlank x.2) with
    | [] => return [⟨none, byteLength source⟩]
    | (start, c) :: rest => do
      let (t, rest) ← token source start c rest
      let others ← marks source limit rest
      return ⟨some t, start⟩ :: others

def lex (source : List Char) : Checked (List Mark) :=
  marks source (source.length + 1) (chars 0 source)

variable {front cs rest : List Char}

theorem drop_chars (start n : Nat) (cs : List Char) :
    (chars start cs).drop n = chars (start + byteLength (cs.take n)) (cs.drop n) := by
  induction cs generalizing start n with
  | nil => cases n <;> rfl
  | cons c cs ih =>
    cases n with
    | zero => rfl
    | succ n =>
      rw [chars, List.drop_succ_cons, ih, List.take_succ_cons, List.drop_succ_cons, byteLength,
        Nat.add_assoc]

theorem map_chars (start : Nat) (cs : List Char) : (chars start cs).map Prod.snd = cs := by
  induction cs generalizing start with
  | nil => rfl
  | cons c cs ih => rw [chars, List.map_cons, ih]

/-! ### Numbers -/

theorem utf8Size_of_isDigit {c : Char} (h : c.isDigit = true) : c.utf8Size = 1 := by
  have hrange : c.toNat ≤ 127 := Nat.le_trans (Text.isDigit_iff.mp h).2 (by decide)
  exact Char.utf8Size_eq_one_iff.mpr hrange

theorem from?_succ (front : List Char) {c : Char} (hc : c.utf8Size = 1) (rest : List Char) :
    from? (front ++ c :: rest) (byteLength front + 1) = some rest := by
  have hafter := from?_append (front ++ [c]) rest
  rwa [List.append_assoc, byteLength_append, byteLength, byteLength, hc] at hafter

theorem digitsEnd_digits {digits : List Char} (h : ∀ c ∈ digits, c.isDigit = true)
    (hrest : ∀ c ∈ rest.head?, c.isDigit = false) (start : Nat) :
    digitsEnd start (chars start (digits ++ rest)) =
      (start + digits.length, chars (start + digits.length) rest) := by
  induction digits generalizing start with
  | nil =>
    cases rest with
    | nil => rfl
    | cons c rest => simp [chars, digitsEnd, hrest c rfl]
  | cons c digits ih =>
    obtain ⟨hc, hdigits⟩ := List.forall_mem_cons.mp h
    rw [List.cons_append, chars, digitsEnd, if_pos hc, utf8Size_of_isDigit hc, ih hdigits,
      List.length_cons, Nat.add_right_comm, Nat.add_assoc]

theorem digitsEnd_stale {digits : List Char} (hfirst : Numeral.startsWithDigit digits = true)
    (h : ∀ c ∈ digits, c.isDigit = true) (hrest : ∀ c ∈ rest.head?, c.isDigit = false)
    (stop start : Nat) :
    digitsEnd stop (chars start (digits ++ rest)) =
      (start + digits.length, chars (start + digits.length) rest) := by
  rw [← digitsEnd_digits h hrest]
  cases digits with
  | nil => cases hfirst
  | cons c digits =>
    have hc : c.isDigit = true := hfirst
    rw [List.cons_append, chars, digitsEnd, digitsEnd, if_pos hc, if_pos hc]

theorem exponentEnd_eq {sign : Option Char} {digits : List Char}
    (hsign : Numeral.spanSign (sign.toList ++ (digits ++ rest)) = (sign, digits ++ rest))
    (hfirst : Numeral.startsWithDigit digits = true) (h : ∀ c ∈ digits, c.isDigit = true)
    (hrest : ∀ c ∈ rest.head?, c.isDigit = false) (stop start : Nat) :
    exponentEnd stop (chars start (sign.toList ++ (digits ++ rest))) =
      (start + (sign.toList ++ digits).length,
        chars (start + (sign.toList ++ digits).length) rest) := by
  cases sign with
  | none =>
    have hplain : exponentEnd stop (chars start (digits ++ rest)) =
        digitsEnd stop (chars start (digits ++ rest)) := by
      cases digits with
      | nil => cases hfirst
      | cons c digits =>
        have hc : c.isDigit = true := hfirst
        rw [List.cons_append, chars, exponentEnd.eq_3]
        · rintro _ _ heq
          cases heq
          exact absurd hc (by decide)
        · rintro _ _ heq
          cases heq
          exact absurd hc (by decide)
    exact hplain.trans (digitsEnd_stale hfirst h hrest stop start)
  | some s =>
    have hlength : start + ([s] ++ digits).length = start + 1 + digits.length := by
      rw [List.length_append, Nat.add_assoc]
      rfl
    have hdigits := digitsEnd_digits h hrest (start + 1)
    rw [Option.toList_some, hlength]
    rcases Numeral.sign_of_spanSign hsign with rfl | rfl
    · exact hdigits
    · exact hdigits

theorem numberEnd?_digits {digits : List Char} (h : ∀ c ∈ digits, c.isDigit = true)
    (source : List Char) (start : Nat) (isFloat : Bool) (rest : List Char) :
    numberEnd? source start isFloat (chars start (digits ++ rest)) =
      numberEnd? source (start + digits.length) isFloat (chars (start + digits.length) rest) := by
  induction digits generalizing start with
  | nil => rfl
  | cons c digits ih =>
    obtain ⟨hc, hdigits⟩ := List.forall_mem_cons.mp h
    rw [List.cons_append, chars, numberEnd?, if_pos hc, utf8Size_of_isDigit hc, ih hdigits,
      List.length_cons, Nat.add_right_comm, Nat.add_assoc]

/-- Only a point in front of a digit, and an exponent, go on with a number after its digits. -/
theorem numberEnd?_exponent (front : List Char) (hdigit : ∀ c ∈ rest.head?, c.isDigit = false)
    (isFloat : Bool)
    (hpoint : isFloat = false → Lexer.fraction rest = ([], rest)) :
    numberEnd? (front ++ rest) (byteLength front) isFloat (chars (byteLength front) rest) =
      match Lexer.exponent rest with
      | some (_, n) => some (byteLength front + n, true, chars (byteLength front + n) (rest.drop n))
      | none => some (byteLength front, isFloat, chars (byteLength front) rest) := by
  cases rest with
  | nil => rfl
  | cons c rest =>
    have hc : ¬c.isDigit = true := by simp [hdigit c rfl]
    rw [chars, numberEnd?, if_neg hc]
    by_cases hfraction : (c == '.' && !isFloat) = true
    · rw [if_pos hfraction]
      simp only [Bool.and_eq_true, beq_iff_eq, Bool.not_eq_true'] at hfraction
      obtain ⟨rfl, rfl⟩ := hfraction
      have hnone : Numeral.startsWithDigit rest = false := by
        rw [Bool.eq_false_iff]
        intro hfirst
        have hpart := hpoint rfl
        rw [Lexer.fraction, if_pos hfirst] at hpart
        exact Numeral.spanDigits_ne_nil hfirst (congrArg Prod.fst hpart)
      rw [digitFollows?, from?_succ front (by decide), Option.map_some, hnone]
      rfl
    · rw [if_neg hfraction]
      by_cases hletter : (c == 'e' || c == 'E') = true
      · have hwidth : c.utf8Size = 1 := by
          simp only [Bool.or_eq_true, beq_iff_eq] at hletter
          rcases hletter with rfl | rfl <;> decide
        rw [if_pos hletter, exponentFollows?, from?_succ front hwidth, Option.map_some, hwidth]
        cases hexponent : Lexer.exponent (c :: rest) with
        | none =>
          have hnone : Numeral.startsWithDigit (Numeral.spanSign rest).2 = false := by
            simpa [Lexer.exponent, hletter] using hexponent
          rw [hnone]
          rfl
        | some found =>
          obtain ⟨e, n⟩ := found
          have hsome : Numeral.startsWithDigit (Numeral.spanSign rest).2 = true := by
            by_contra hnot
            simp [Lexer.exponent, hnot] at hexponent
          obtain ⟨_, sign, digits, last, heq, _, hsign, hfirst, hdigits, hlast, _, rfl, _⟩ :=
            Lexer.exponent_eq_some hexponent
          cases heq
          rw [hsome]
          have hend := exponentEnd_eq hsign hfirst hdigits hlast (byteLength front)
            (byteLength front + 1)
          have hdrop : (sign.toList ++ (digits ++ last)).drop (sign.toList ++ digits).length =
              last := by
            rw [← List.append_assoc, List.drop_left]
          show some ((exponentEnd _ _).1, true, (exponentEnd _ _).2) = _
          rw [hend]
          dsimp only
          rw [List.drop_succ_cons, hdrop, Nat.add_assoc, Nat.add_comm 1]
      · have hnone : Lexer.exponent (c :: rest) = none := by
          simp [Lexer.exponent, hletter]
        rw [if_neg hletter, hnone]

theorem byteLength_digits {digits : List Char} (h : ∀ c ∈ digits, c.isDigit = true) :
    byteLength digits = digits.length := by
  induction digits with
  | nil => rfl
  | cons c digits ih =>
    obtain ⟨hc, hdigits⟩ := List.forall_mem_cons.mp h
    rw [byteLength, ih hdigits, utf8Size_of_isDigit hc, List.length_cons, Nat.add_comm]

theorem byteLength_pointText {part : List Char} (h : ∀ c ∈ part, c.isDigit = true) :
    byteLength (pointText part) = (pointText part).length := by
  cases part with
  | nil => rfl
  | cons c part =>
    have hwidth : '.'.utf8Size = 1 := by decide
    rw [pointText, if_neg (List.cons_ne_nil _ _), byteLength, byteLength_digits h, hwidth,
      Nat.add_comm]
    rfl

theorem numberEnd?_fraction {part : List Char} (hpart : ∀ c ∈ part, c.isDigit = true)
    (front rest : List Char) :
    numberEnd? (front ++ (pointText part ++ rest)) (byteLength front) false
        (chars (byteLength front) (pointText part ++ rest)) =
      numberEnd? (front ++ (pointText part ++ rest)) (byteLength front + (pointText part).length)
        (part ≠ []) (chars (byteLength front + (pointText part).length) rest) := by
  cases part with
  | nil => rfl
  | cons d part =>
    have hfirst : Numeral.startsWithDigit (d :: part ++ rest) = true := hpart d List.mem_cons_self
    have hwidth : '.'.utf8Size = 1 := by decide
    have hstep : numberEnd? (front ++ '.' :: (d :: part ++ rest)) (byteLength front) false
        (chars (byteLength front) ('.' :: (d :: part ++ rest))) =
      numberEnd? (front ++ '.' :: (d :: part ++ rest)) (byteLength front + 1) true
        (chars (byteLength front + 1) (d :: part ++ rest)) := by
      rw [chars, numberEnd?, if_neg (by decide), if_pos (by decide), digitFollows?,
        from?_succ front hwidth, Option.map_some, hfirst, hwidth]
      rfl
    refine hstep.trans ?_
    rw [numberEnd?_digits hpart, Nat.add_assoc, Nat.add_comm 1]
    rfl

theorem numberEnd?_eq (front cs : List Char) :
    numberEnd? (front ++ cs) (byteLength front) false (chars (byteLength front) cs) =
      some (byteLength front + (numberText cs).1.length, (numberText cs).2,
        chars (byteLength front + (numberText cs).1.length)
          (cs.drop (numberText cs).1.length)) := by
  obtain ⟨whole, part, last, rfl, hwhole, hpart, hend, hnone, htext⟩ := Lexer.numberText_eq cs
  have hwidth : byteLength (front ++ whole) = byteLength front + whole.length := by
    rw [byteLength_append, byteLength_digits hwhole]
  have hbase : byteLength (front ++ whole ++ pointText part) =
      byteLength front + (whole ++ pointText part).length := by
    rw [byteLength_append, hwidth, byteLength_pointText hpart, List.length_append, Nat.add_assoc]
  have hpoint := numberEnd?_fraction hpart (front ++ whole) last
  rw [hwidth, Nat.add_assoc, ← List.length_append, ← hbase] at hpoint
  -- After the digits and the fraction only an exponent may follow.
  have hexponent := numberEnd?_exponent (front ++ whole ++ pointText part) hend
    (part ≠ []) fun hnil => hnone (by simpa using hnil)
  rw [List.append_assoc (front ++ whole)] at hexponent
  rw [numberEnd?_digits hwhole, ← List.append_assoc, hpoint, hexponent, hbase, htext]
  have hdrop : ∀ n, (whole ++ (pointText part ++ last)).drop
      ((whole ++ pointText part).length + n) = last.drop n := by
    intro n
    rw [← List.append_assoc, List.drop_length_add_append]
  cases hfound : Lexer.exponent last with
  | none =>
    have hlast := hdrop 0
    rw [Nat.add_zero, List.drop_zero] at hlast
    dsimp only
    rw [hlast]
  | some found =>
    obtain ⟨e, n⟩ := found
    have hlength : (whole ++ (pointText part ++ last.take n)).length =
        (whole ++ pointText part).length + n := by
      rw [← List.append_assoc, List.length_append,
        List.length_take_of_le (Lexer.length_of_exponent hfound)]
    dsimp only
    rw [hlength, hdrop, Nat.add_assoc]

theorem byteLength_exponent {e : Int} {n : Nat} (h : Lexer.exponent cs = some (e, n)) :
    byteLength (cs.take n) = (cs.take n).length := by
  obtain ⟨letter, sign, digits, last, _, hletter, hsign, _, hdigits, _, _, _, htake⟩ :=
    Lexer.exponent_eq_some h
  have hwidth : letter.utf8Size = 1 := by rcases hletter with rfl | rfl <;> decide
  have hsignWidth : byteLength sign.toList = sign.toList.length := by
    cases sign with
    | none => rfl
    | some s => rcases Numeral.sign_of_spanSign hsign with rfl | rfl <;> decide
  rw [htake, byteLength, byteLength_append, hsignWidth, byteLength_digits hdigits, hwidth,
    List.length_cons, List.length_append, Nat.add_comm]

theorem numberText_bytes (cs : List Char) :
    cs = (numberText cs).1 ++ cs.drop (numberText cs).1.length ∧
      byteLength (numberText cs).1 = (numberText cs).1.length := by
  obtain ⟨whole, part, last, rfl, hwhole, hpart, _, _, htext⟩ := Lexer.numberText_eq cs
  have hbase : byteLength (whole ++ pointText part) = (whole ++ pointText part).length := by
    rw [byteLength_append, byteLength_digits hwhole, byteLength_pointText hpart,
      List.length_append]
  have hsplit : ∀ text last : List Char, text ++ last = text ++ (text ++ last).drop text.length :=
    fun text last => by rw [List.drop_left]
  rw [htext]
  cases hfound : Lexer.exponent last with
  | none =>
    dsimp only
    rw [← List.append_assoc]
    exact ⟨hsplit _ _, hbase⟩
  | some found =>
    obtain ⟨e, n⟩ := found
    dsimp only
    refine ⟨?_, ?_⟩
    · have hall := hsplit (whole ++ (pointText part ++ last.take n)) (last.drop n)
      simp only [List.append_assoc, List.take_append_drop] at hall ⊢
      exact hall
    · rw [← List.append_assoc, byteLength_append, hbase, byteLength_exponent hfound,
        ← List.length_append]

/-- What comes after a token is what comes after its first character, less its other ones. -/
theorem chars_after {c : Char} {n : Nat} (hn : n ≠ 0) (start : Nat) (rest : List Char) :
    chars (start + byteLength ((c :: rest).take n)) ((c :: rest).drop n) =
      (chars (start + c.utf8Size) rest).drop (n - 1) := by
  obtain ⟨n, rfl⟩ := Nat.exists_eq_succ_of_ne_zero hn
  exact (drop_chars start (n + 1) (c :: rest)).symm

theorem found_bind {α β : Type} (a : α) (f : α → Checked β) :
    (liftM (some a) : Checked α) >>= f = f a := rfl

theorem number_eq (front rest : List Char) {c : Char} (hc : c.isDigit = true) :
    number (front ++ c :: rest) (byteLength front) (chars (byteLength front + c.utf8Size) rest) =
      ofScan (byteLength front) (chars (byteLength front + c.utf8Size) rest)
        (Lexer.number (c :: rest)) := by
  have hend := numberEnd?_eq front (c :: rest)
  rw [chars, numberEnd?, if_pos hc] at hend
  obtain ⟨hsplit, hbytes⟩ := numberText_bytes (c :: rest)
  have hfirst : Numeral.startsWithDigit (c :: rest) = true := hc
  have hread := Lexer.number_eq_read hfirst
  have hne := Lexer.numberText_ne_nil hfirst
  generalize numberText (c :: rest) = read at *
  obtain ⟨text, isFloat⟩ := read
  dsimp only at hend hsplit hbytes hread hne
  have hcut : between? (front ++ c :: rest) (byteLength front)
      (byteLength front + text.length) = some text :=
    between?_eq_some_iff.mpr ⟨front, _, congrArg _ hsplit, rfl, by rw [hbytes]⟩
  have hafter : chars (byteLength front + text.length) ((c :: rest).drop text.length) =
      (chars (byteLength front + c.utf8Size) rest).drop (text.length - 1) := by
    have htake : (c :: rest).take text.length = text := by
      rw [hsplit, List.take_left]
    have hchars := chars_after (fun h => hne (List.length_eq_zero_iff.mp h)) (byteLength front)
      rest (c := c) (n := text.length)
    rwa [htake, hbytes] at hchars
  rw [number, hend, found_bind]
  dsimp only
  rw [hcut, found_bind, hafter]
  rcases hread with ⟨rfl, x, hx, hnumber⟩ | ⟨rfl, hnumber⟩
  · rw [if_pos rfl, hx, found_bind, hnumber]
    rfl
  · rw [if_neg (by simp), hnumber]
    cases Numeral.int64? text with
    | none => rfl
    | some n => rfl

/-! ### Words -/

theorem wordEnd_eq (front : List Char) (c : Char) (rest : List Char) : ∃ before last,
    c :: rest.takeWhile Text.continuesIdentifier = before ++ [last] ∧
      wordEnd (byteLength front) (chars (byteLength front + c.utf8Size) rest) =
        (byteLength (front ++ before), (chars (byteLength front + c.utf8Size) rest).drop
          (rest.takeWhile Text.continuesIdentifier).length) := by
  induction rest generalizing front c with
  | nil => exact ⟨[], c, rfl, by rw [List.append_nil]; rfl⟩
  | cons d rest ih =>
    rw [chars, wordEnd]
    by_cases hd : Text.continuesIdentifier d = true
    · obtain ⟨before, last, hword, hend⟩ := ih (front ++ [c]) d
      rw [byteLength_snoc, List.append_assoc] at hend
      rw [List.takeWhile_cons_of_pos hd, if_pos hd, hend]
      exact ⟨c :: before, last, congrArg _ hword, rfl⟩
    · rw [List.takeWhile_cons_of_neg hd, if_neg hd]
      exact ⟨[], c, rfl, by rw [List.append_nil]; rfl⟩

theorem word_eq (front rest : List Char) {c : Char} (hc : Text.continuesIdentifier c = true) :
    word (front ++ c :: rest) (byteLength front) (chars (byteLength front + c.utf8Size) rest) =
      ofScan (byteLength front) (chars (byteLength front + c.utf8Size) rest)
        (Lexer.word (c :: rest)) := by
  obtain ⟨before, last, hword, hend⟩ := wordEnd_eq front c rest
  have hsplit : c :: rest = before ++ last :: rest.dropWhile Text.continuesIdentifier := by
    rw [List.append_cons, ← hword, List.cons_append, List.takeWhile_append_dropWhile]
  have hcut : between? (front ++ c :: rest) (byteLength front)
      (byteLength (front ++ before) + last.utf8Size) = some (before ++ [last]) := by
    refine between?_eq_some_iff.mpr ⟨front, rest.dropWhile Text.continuesIdentifier, ?_, rfl, ?_⟩
    · rw [hsplit, List.append_assoc]
      rfl
    · rw [byteLength_append, byteLength_append, Nat.add_assoc]
      rfl
  have htail := from?_append (front ++ before) (last :: rest.dropWhile Text.continuesIdentifier)
  rw [List.append_assoc, ← hsplit] at htail
  have hname : (c :: rest).takeWhile Text.continuesIdentifier = before ++ [last] := by
    rw [List.takeWhile_cons_of_pos hc, hword]
  rw [word, hend]
  dsimp only
  rw [htail, found_bind]
  show (liftM (between? _ _ (byteLength (front ++ before) + last.utf8Size)) : Checked _) >>= _ = _
  rw [hcut, found_bind, Lexer.word, hname, ← hword]
  rfl

/-! ### Tokens -/

theorem token_eq (front rest : List Char) (c : Char) :
    token (front ++ c :: rest) (byteLength front) c (chars (byteLength front + c.utf8Size) rest) =
      ofScan (byteLength front) (chars (byteLength front + c.utf8Size) rest)
        (Lexer.token c rest) := by
  rw [token, Lexer.token, map_chars]
  split
  · rfl
  · split
    · rfl
    · split
      case isTrue hdigit => exact number_eq front rest hdigit
      case isFalse =>
        split
        case isTrue hstart =>
          exact word_eq front rest (Text.continuesIdentifier_of_startsIdentifier hstart)
        case isFalse => rfl

def ofLexemes (source : List Char) (lexemes : List Lexeme) : List Mark :=
  lexemes.map (fun l => ⟨some l.token, l.position⟩) ++ [⟨none, byteLength source⟩]

theorem marks_blank {c : Char} (hc : Text.isBlank c = true) (source : List Char)
    (limit start : Nat) (rest : Chars) :
    marks source (limit + 1) ((start, c) :: rest) = marks source (limit + 1) rest := by
  rw [marks, marks, List.dropWhile_cons, if_pos hc]

/-- The lexer that works with offsets never misses and gives what the lexer gives. Each token takes
a character, so one round more than there are characters is enough. -/
theorem marks_eq (front cs : List Char) {limit : Nat} (hlimit : cs.length < limit) :
    marks (front ++ cs) limit (chars (byteLength front) cs) =
      (some ((Lexer.lexFrom (byteLength front) 0 cs).map (ofLexemes (front ++ cs))) :
        Option _) := by
  induction hlength : cs.length using Nat.strong_induction_on generalizing front cs limit with
  | h length ih =>
    obtain ⟨limit, rfl⟩ := Nat.exists_eq_succ_of_ne_zero (Nat.ne_zero_of_lt hlimit)
    cases cs with
    | nil => rfl
    | cons c rest =>
      rw [List.length_cons] at hlimit hlength
      rw [chars, Lexer.lexFrom]
      by_cases hblank : Text.isBlank c = true
      · have henough : rest.length < limit + 1 := by omega
        have hrest := ih _ (by omega) (front ++ [c]) rest henough rfl
        rw [List.append_assoc, byteLength_snoc] at hrest
        rw [marks_blank hblank, if_pos hblank]
        exact hrest
      · rw [marks, List.dropWhile_cons, if_neg hblank, if_neg hblank]
        dsimp only
        rw [token_eq]
        cases Lexer.token c rest with
        | error fault => rfl
        | ok found =>
          obtain ⟨t, n⟩ := found
          have hshort : (rest.drop (n - 1)).length ≤ rest.length := by
            rw [List.length_drop]
            exact Nat.sub_le _ _
          have henough : (rest.drop (n - 1)).length < limit := by omega
          have hrest := ih _ (by omega) (front ++ [c] ++ rest.take (n - 1)) (rest.drop (n - 1))
            henough rfl
          rw [List.append_assoc, List.take_append_drop, List.append_assoc, byteLength_append,
            byteLength_snoc, ← Lexer.lexFrom_drop, ← drop_chars] at hrest
          show marks _ _ ((chars (byteLength front + c.utf8Size) rest).drop (n - 1)) >>= _ = _
          rw [List.singleton_append] at hrest
          rw [hrest]
          dsimp only
          cases Lexer.lexFrom (byteLength front + c.utf8Size) (n - 1) rest with
          | error e => rfl
          | ok lexemes => rfl

theorem lex_eq (source : List Char) :
    lex source = (some ((FieldGraph.lex source).map (ofLexemes source)) : Option _) :=
  marks_eq [] source (Nat.lt_succ_self _)

end ByteLexer

end FieldGraph
