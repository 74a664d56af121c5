import BehaviorGraph.Proofs.NameReading
import BehaviorGraph.Ron.Printer
import BehaviorGraph.Ron.Token
/-!
# RON Tokens Read Back

The readers of tokens take exactly the characters that a token was written with.

The notation has no mark at the end of a name or a number, so both go on as long as the
text does. What is written behind a value is always a mark, though: a comma, a colon
or something that closes. No mark belongs to a name or a number, and none is white
space, so whatever stands in front of one ends there. A name that a type carries is
followed by an opening parenthesis, which is a mark of the same sort.

Not every name stands for itself. Some words are values of other kinds, and texts
can begin with a letter too, so a bare name is one that looks like neither.

## Main definitions

* `Ron.IsBlank`: There is nothing but white space.
* `Ron.EndsToken`, `Ron.EndsValue`: A text in front of which a token or a value ends.
* `Ron.isWord`, `Ron.isBareName`: The text is a name, and stands for itself.
* `Ron.isNumberToken`: The token is read as a number.

## Theorems

* `Ron.skip?_append`: White space in front is dropped.
* `Ron.name?_append`, `Ron.word?_append`: A name is read up to the mark behind it.
* `Ron.number?_append`: So is a number.
* `Ron.quoted?_escape`: A text in quotes is read back, whatever characters it has.
-/

namespace BehaviorGraph.Ron

/-! ### White space -/

/-- There is nothing but white space. -/
def IsBlank (cs : List Char) : Prop :=
  ∀ c ∈ cs, isSpace c = true

/-- White space or a comment can start with the character. -/
def startsGap (c : Char) : Bool :=
  isSpace c || c = '/'

theorem isBlank_nil : IsBlank [] :=
  List.forall_mem_nil _

theorem isBlank_indent (layout : Layout) (depth : Nat) : IsBlank (indent layout depth) := by
  cases layout with
  | compact => exact isBlank_nil
  | lines =>
      refine List.forall_mem_cons.2 ⟨rfl, fun c hc => ?_⟩
      rw [List.eq_of_mem_replicate hc]
      rfl

theorem colon_eq (layout : Layout) : ∃ gap, layout.colon = ':' :: gap ∧ IsBlank gap := by
  cases layout with
  | compact => exact ⟨[], rfl, isBlank_nil⟩
  | lines => exact ⟨[' '], rfl, List.forall_mem_singleton.2 rfl⟩

theorem tupleSeparator_eq (layout : Layout) :
    ∃ gap, tupleSeparator layout = ',' :: gap ∧ IsBlank gap := by
  cases layout with
  | compact => exact ⟨[], rfl, isBlank_nil⟩
  | lines => exact ⟨[' '], rfl, List.forall_mem_singleton.2 rfl⟩

theorem ne_slash_of_isSpace {c : Char} (hc : isSpace c = true) : c ≠ '/' := by
  rintro rfl
  exact absurd hc (by decide)

theorem skip?_append {gap : List Char} (hgap : IsBlank gap) (cs : List Char) :
    skip? (gap ++ cs) = skip? cs := by
  induction gap with
  | nil => rfl
  | cons c gap ih =>
      have hc : isSpace c = true := hgap c List.mem_cons_self
      rw [List.cons_append, skip?_of_ne_slash (ne_slash_of_isSpace hc), if_pos hc]
      exact ih fun c' hc' => hgap c' (List.mem_cons_of_mem c hc')

theorem skip?_cons {c : Char} (hc : startsGap c = false) (cs : List Char) :
    skip? (c :: cs) = some (c :: cs) := by
  simp only [startsGap, Bool.or_eq_false_iff, decide_eq_false_iff_not] at hc
  rw [skip?_of_ne_slash hc.2, if_neg (Bool.eq_false_iff.1 hc.1)]

/-! ### Where tokens end -/

/-- The marks that stand behind tokens. -/
def marks : List Char :=
  ['(', ')', ',', ':', ']', '\x7d']

/-- A token ends in front of the text. -/
def EndsToken (rest : List Char) : Prop :=
  ∀ c ∈ rest.head?, c ∈ marks

/-- A value ends in front of the text: nothing opens there. -/
def EndsValue (rest : List Char) : Prop :=
  EndsToken rest ∧ rest.head? ≠ some '('

theorem endsToken_cons {c : Char} (hc : c ∈ marks) (cs : List Char) : EndsToken (c :: cs) := by
  intro c' hc'
  rw [← Option.some.inj hc']
  exact hc

theorem endsValue_cons {c : Char} (hc : c ∈ marks.tail) (cs : List Char) :
    EndsValue (c :: cs) := by
  refine ⟨endsToken_cons (List.mem_of_mem_tail hc) cs, fun heq => ?_⟩
  rw [Option.some.inj heq] at hc
  exact absurd hc (by decide)

theorem endsValue_nil : EndsValue [] :=
  ⟨fun c hc => absurd hc (Option.not_mem_none c), (Option.some_ne_none _).symm⟩

/-- A test that no character of a list passes fails for each of them. -/
theorem forall_mem_eq_false {cs : List Char} {p : Char → Bool} (h : cs.any p = false) :
    ∀ c ∈ cs, p c = false :=
  fun c hc => Bool.eq_false_iff.2 (List.any_eq_false.1 h c hc)

theorem startsGap_of_mem_marks : ∀ c ∈ marks, startsGap c = false :=
  forall_mem_eq_false (by decide)

theorem continuesIdentifier_of_mem_marks : ∀ c ∈ marks, Text.continuesIdentifier c = false :=
  forall_mem_eq_false (by decide)

theorem isTokenChar_of_mem_marks : ∀ c ∈ marks, isTokenChar c = false :=
  forall_mem_eq_false (by decide)

/-- There is no white space in front of a mark. -/
theorem EndsToken.skip?_eq {rest : List Char} (h : EndsToken rest) : skip? rest = some rest := by
  rcases rest with _ | ⟨c, rest⟩
  · rfl
  · exact skip?_cons (startsGap_of_mem_marks c (h c rfl)) rest

/-- Characters of a sort are taken up to a mark that is not of it. -/
theorem takeWhile_append {p : Char → Bool} (hmarks : ∀ c ∈ marks, p c = false)
    {cs rest : List Char} (hcs : cs.all p = true) (hrest : EndsToken rest) :
    (cs ++ rest).takeWhile p = cs := by
  have hnil : rest.takeWhile p = [] := by
    rcases rest with _ | ⟨c, rest⟩
    · rfl
    · exact List.takeWhile_cons_of_neg (by simp [hmarks c (hrest c rfl)])
  rw [List.takeWhile_append_of_pos (List.all_eq_true.1 hcs), hnil, List.append_nil]

/-! ### Names and words -/

/-- The text is a name. -/
def isWord (cs : List Char) : Bool :=
  cs.head?.any startsName && cs.all Text.continuesIdentifier

/-- The words that are values of another kind, or begin one. -/
def valueWords : List String :=
  ["Some", "None", "true", "false"] ++ numberWords

/-- The text is a name that stands for itself. -/
def isBareName (s : String) : Bool :=
  isWord s.toList && s.toList.head? != some 'b' && s.toList.head? != some 'r' && s ∉ valueWords

theorem isWord_of_isBareName {s : String} (hs : isBareName s = true) : isWord s.toList = true := by
  simp only [isBareName, Bool.and_eq_true] at hs
  exact hs.1.1.1

/-- Behind characters of a name there is one that is neither of a name nor a mark. -/
def leavesNames (cs : List Char) : Bool :=
  (cs.find? fun c => !Text.continuesIdentifier c).any (· ∉ marks)

/-- What leaves names does not stand in front of a mark. -/
theorem isPrefixOf_append_eq_false {begin cs rest : List Char} (hbegin : leavesNames begin = true)
    (hcs : cs.all Text.continuesIdentifier = true) (hrest : EndsToken rest) :
    begin.isPrefixOf (cs ++ rest) = false := by
  induction begin generalizing cs with
  | nil => exact absurd hbegin (by decide)
  | cons b begin ih =>
      rcases cs with _ | ⟨c, cs⟩
      · rcases rest with _ | ⟨c, rest⟩
        · rfl
        · have hne : b ≠ c := by
            rintro rfl
            have hmark := hrest b rfl
            simp [leavesNames, continuesIdentifier_of_mem_marks b hmark, hmark] at hbegin
          simp [List.isPrefixOf, hne]
      · rw [List.all_cons, Bool.and_eq_true] at hcs
        by_cases hne : b = c
        · subst hne
          rw [leavesNames, List.find?_cons_of_neg (by simp [hcs.1])] at hbegin
          simp [ih hbegin hcs.2]
        · simp [List.isPrefixOf, hne]

theorem afterMark?_eq_none {mark cs rest : List Char} (hmark : leavesNames mark = true)
    (hcs : cs.all Text.continuesIdentifier = true) (hrest : EndsToken rest) :
    afterMark? mark (cs ++ rest) = none := by
  rw [afterMark?, isPrefixOf_append_eq_false hmark hcs hrest]
  rfl

/-- A name is read up to the mark behind it. -/
theorem name?_append {cs rest : List Char} (hcs : isWord cs = true) (hrest : EndsToken rest) :
    name? (cs ++ rest) = some (String.ofList cs, rest) := by
  simp only [isWord, Bool.and_eq_true] at hcs
  have hleaves : ∀ m ∈ textMarks, leavesNames m = true := by decide
  have hmarks : textMarks.any (·.isPrefixOf (cs ++ rest)) = false :=
    List.any_eq_false.2 fun m hm =>
      Bool.eq_false_iff.1 (isPrefixOf_append_eq_false (hleaves m hm) hcs.2 hrest)
  have hraw : afterMark? "r#".toList (cs ++ rest) = none :=
    afterMark?_eq_none (by decide) hcs.2 hrest
  have htake := takeWhile_append continuesIdentifier_of_mem_marks hcs.2 hrest
  have hhead : (cs ++ rest).head?.any startsName = true := by
    rcases cs with _ | ⟨c, cs⟩
    · exact absurd hcs.1 (by decide)
    · exact hcs.1
  simp only [name?, hmarks, hraw, htake, hhead, List.drop_left, Bool.false_eq_true, ↓reduceIte]

/-- No name begins with a character that starts none. -/
theorem name?_eq_none {c : Char} (hc : startsName c = false) (cs : List Char) :
    name? (c :: cs) = none := by
  have hraw : afterMark? "r#".toList (c :: cs) = none := by
    have hne : 'r' ≠ c := by
      rintro rfl
      exact absurd hc (by decide)
    simp [afterMark?, List.isPrefixOf, hne]
  simp only [name?, hraw, List.head?_cons, Option.any_some, hc, Bool.false_eq_true, ↓reduceIte,
    ite_self]

/-- Characters of a sort are all that is taken exactly if they stand in front and the next
    character is not of it. -/
theorem takeWhile_eq_iff {p : Char → Bool} {target : List Char} (htarget : target.all p = true)
    (cs : List Char) :
    cs.takeWhile p = target ↔
      target.isPrefixOf cs = true ∧ (cs.drop target.length).head?.any p = false := by
  induction target generalizing cs with
  | nil =>
      rcases cs with _ | ⟨c, cs⟩
      · simp
      · rcases hc : p c with _ | _ <;> simp [hc]
  | cons t target ih =>
      rw [List.all_cons, Bool.and_eq_true] at htarget
      rcases cs with _ | ⟨c, cs⟩
      · simp
      · by_cases hc : t = c
        · subst hc
          simp [htarget.1, ih htarget.2]
        · have hne : ¬c = t := fun heq => hc heq.symm
          have htake : (c :: cs).takeWhile p ≠ t :: target := by
            rw [List.takeWhile_cons]
            split
            · exact fun heq => hne (List.cons.inj heq).1
            · exact (List.cons_ne_nil _ _).symm
          simp [htake, List.isPrefixOf, hc]

/-- A given word is read exactly if the characters of a name in front spell it. -/
theorem word?_eq {word : String} (hword : word.toList.all Text.continuesIdentifier = true)
    (cs : List Char) :
    word? word cs =
      if cs.takeWhile Text.continuesIdentifier = word.toList then some (cs.drop word.toList.length)
      else none := by
  simp only [takeWhile_eq_iff hword, word?, afterMark?]
  rcases word.toList.isPrefixOf cs with _ | _
  · rfl
  · simp only [true_and, ↓reduceIte]
    rcases (cs.drop word.toList.length).head?.any Text.continuesIdentifier with _ | _ <;> rfl

/-- A name is the given word, or it is another one. -/
theorem word?_append {word : String} (hword : word.toList.all Text.continuesIdentifier = true)
    {cs rest : List Char} (hcs : cs.all Text.continuesIdentifier = true) (hrest : EndsToken rest) :
    word? word (cs ++ rest) = if cs = word.toList then some rest else none := by
  rw [word?_eq hword, takeWhile_append continuesIdentifier_of_mem_marks hcs hrest]
  split
  · next heq => rw [← heq, List.drop_left]
  · rfl

/-- No word begins with a character that starts no name. -/
theorem word?_eq_none {word : String} (hword : isWord word.toList = true) {c : Char}
    (hc : startsName c = false) (cs : List Char) : word? word (c :: cs) = none := by
  simp only [isWord, Bool.and_eq_true] at hword
  have htake : (c :: cs).takeWhile Text.continuesIdentifier ≠ word.toList := by
    intro heq
    rw [← heq, List.takeWhile_cons] at hword
    split at hword
    · exact absurd hword.1 (by simp [hc])
    · exact absurd hword.1 (by decide)
  rw [word?_eq hword.2, if_neg htake]

/-! ### Words that are values -/

theorem isWord_of_mem_valueWords : ∀ w ∈ valueWords, isWord w.toList = true := by
  decide

/-- Nothing that is a value by itself comes next, if none of the words does. -/
theorem wordValue?_eq_none_of {cs : List Char} (h : ∀ w ∈ valueWords, word? w cs = none) :
    wordValue? cs = none := by
  refine List.findSome?_eq_none_iff.2 fun e he => ?_
  have hmem : e.1 ∈ valueWords.tail := List.mem_map_of_mem (f := Prod.fst) he
  simp only [h e.1 (List.mem_of_mem_tail hmem), Option.map_none]

theorem wordValue?_eq_none {c : Char} (hc : startsName c = false) (cs : List Char) :
    wordValue? (c :: cs) = none :=
  wordValue?_eq_none_of fun w hw => word?_eq_none (isWord_of_mem_valueWords w hw) hc cs

/-- A name that is no such word is no value by itself. -/
theorem wordValue?_append_eq_none {cs rest : List Char}
    (hcs : cs.all Text.continuesIdentifier = true) (hne : ∀ w ∈ valueWords, cs ≠ w.toList)
    (hrest : EndsToken rest) : wordValue? (cs ++ rest) = none := by
  refine wordValue?_eq_none_of fun w hw => ?_
  have hword := isWord_of_mem_valueWords w hw
  simp only [isWord, Bool.and_eq_true] at hword
  rw [word?_append hword.2 hcs hrest, if_neg (hne w hw)]

theorem wordValue?_missing {rest : List Char} (hrest : EndsToken rest) :
    wordValue? ("None".toList ++ rest) = some (.missing, rest) := by
  have hmissing : word? "None" ("None".toList ++ rest) = some rest :=
    word?_append (by decide) (by decide) hrest
  simp only [wordValue?, List.cons_append, List.findSome?_cons, hmissing, Option.map_some]

theorem wordValue?_infinity {rest : List Char} (hrest : EndsToken rest) :
    wordValue? ("inf".toList ++ rest) = some (.number "inf".toList, rest) := by
  have hchars : "inf".toList.all Text.continuesIdentifier = true := by decide
  have hothers : ∀ w ∈ ["None", "true", "false"], word? w ("inf".toList ++ rest) = none := by
    intro w hw
    have hword : w.toList.all Text.continuesIdentifier = true ∧ "inf".toList ≠ w.toList := by
      revert w
      decide
    rw [word?_append hword.1 hchars hrest, if_neg hword.2]
  have hinfinity : word? "inf" ("inf".toList ++ rest) = some rest :=
    (word?_append hchars hchars hrest).trans (if_pos rfl)
  simp only [wordValue?, numberWords, List.map_cons, List.cons_append, List.nil_append,
    List.findSome?_cons, hothers "None" (by decide), hothers "true" (by decide),
    hothers "false" (by decide), hinfinity, Option.map_none, Option.map_some]

/-! ### Numbers -/

/-- The token is read as a number: it is the word for infinity, or it starts and goes on as
    numbers do. -/
def isNumberToken (token : List Char) : Bool :=
  token = "inf".toList ||
    (token.head?.any startsNumber && token.all isTokenChar && isNumber token)

theorem exists_eq_toChar {c : Char} (hc : c.isDigit = true) : ∃ d : Digit, c = d.toChar := by
  have hrange : 48 ≤ c.toNat ∧ c.toNat ≤ 57 := by
    simpa [Char.isDigit, UInt32.le_iff_toNat_le] using hc
  refine ⟨⟨c.toNat - 48, by omega⟩, ?_⟩
  rw [Digit.toChar, Nat.add_sub_cancel' hrange.1, Char.ofNat_toNat]

/-- A number starts with a digit, a sign or a point. -/
theorem startsNumber_cases {p : Char → Prop} (hdigit : ∀ d : Digit, p d.toChar)
    (hplus : p '+') (hminus : p '-') (hpoint : p '.') {c : Char} (hc : startsNumber c = true) :
    p c := by
  simp only [startsNumber, Bool.or_eq_true, decide_eq_true_eq] at hc
  rcases hc with ((hc | rfl) | rfl) | rfl
  · rcases exists_eq_toChar hc with ⟨d, rfl⟩
    exact hdigit d
  · exact hplus
  · exact hminus
  · exact hpoint

theorem startsName_of_startsNumber {c : Char} (hc : startsNumber c = true) :
    startsName c = false :=
  startsNumber_cases (p := fun c => startsName c = false) (by decide) (by decide) (by decide)
    (by decide) hc

/-- A number is read up to the mark behind it. -/
theorem number?_append {token rest : List Char} (hhead : token.head?.any startsNumber = true)
    (hchars : token.all isTokenChar = true) (hnumber : isNumber token = true)
    (hrest : EndsToken rest) : number? (token ++ rest) = some (.number token, rest) := by
  have htake := takeWhile_append isTokenChar_of_mem_marks hchars hrest
  have hfirst : (token ++ rest).head?.any startsNumber = true := by
    rcases token with _ | ⟨c, token⟩
    · exact absurd hhead (by decide)
    · exact hhead
  simp only [number?, htake, hfirst, hnumber, Bool.and_self, ↓reduceIte, List.drop_left]

/-! ### Texts in quotes -/

theorem shortMeaning?_mark {c : Char} (hc : c = '\\' ∨ c = '\x22' ∨ c = '\x27') :
    shortMeaning? c = some c := by
  rcases hc with rfl | rfl | rfl <;> rfl

theorem charOfCode?_toNat (c : Char) : charOfCode? c.toNat = some c := by
  have hvalid : c.toNat.isValidChar := c.valid
  rw [charOfCode?, if_pos hvalid, Char.ofNat_toNat]

/-- The digits of a code point are read one after the other, up to the closing brace. -/
theorem quotedFrom?_code (ds : List HexDigit) {count value : Nat} (hcount : count + ds.length ≤ 6)
    (rest : List Char) :
    quotedFrom? false (.code count value) (ds.map HexDigit.toChar ++ '\x7d' :: rest) =
      quotedFrom? false (.code (count + ds.length) (ds.foldl (fun n d => n * 16 + d.val) value))
        ('\x7d' :: rest) := by
  induction ds generalizing count value with
  | nil => rfl
  | cons d ds ih =>
      have hbrace : ∀ d : HexDigit, d.toChar ≠ '\x7d' := by decide
      rw [List.length_cons] at hcount
      have hlt : count < 6 := by omega
      rw [List.map_cons, List.cons_append, quotedFrom?, if_neg (hbrace d), HexDigit.ofChar?_toChar]
      simp only [hlt, ↓reduceIte]
      rw [ih (by omega), List.length_cons, List.foldl_cons, Nat.add_right_comm]
      rfl

theorem lt_pow_hexDigits (n : Nat) : n < 16 ^ (Nat.log2 n / 4 + 1) := by
  calc n
    _ < 2 ^ (Nat.log2 n + 1) := Nat.lt_log2_self
    _ ≤ 2 ^ (4 * (Nat.log2 n / 4 + 1)) := Nat.pow_le_pow_right (by decide) (by omega)
    _ = 16 ^ (Nat.log2 n / 4 + 1) := by rw [Nat.pow_mul]

/-- A code point has at most six digits. -/
theorem log2_toNat_le (c : Char) : Nat.log2 c.toNat / 4 + 1 ≤ 6 := by
  have hlt : c.toNat < 2 ^ 21 := by
    have hvalid : c.toNat < 55296 ∨ 57343 < c.toNat ∧ c.toNat < 1114112 := c.valid
    omega
  rcases Nat.eq_zero_or_pos c.toNat with hzero | hpos
  · rw [hzero]
    decide
  · have hlog := (Nat.log2_lt (Nat.ne_of_gt hpos)).2 hlt
    omega

theorem quotedFrom?_hexChars (c : Char) (rest : List Char) :
    quotedFrom? false .between
      ('\\' :: 'u' :: '\x7b' :: (Text.hexChars c.toNat ++ '\x7d' :: rest)) =
      (quotedFrom? false .between rest).map (prepend c) := by
  have hlength := length_hexDigitsOf (Nat.log2 c.toNat / 4 + 1) c.toNat
  have hvalue : ofHexDigits (hexDigitsOf (Nat.log2 c.toNat / 4 + 1) c.toNat) = c.toNat := by
    rw [ofHexDigits_hexDigitsOf, Nat.mod_eq_of_lt (lt_pow_hexDigits c.toNat)]
  have hcount : 0 + (hexDigitsOf (Nat.log2 c.toNat / 4 + 1) c.toNat).length ≤ 6 := by
    rw [hlength, Nat.zero_add]
    exact log2_toNat_le c
  rw [quotedFrom?, Text.hexChars, quotedFrom?_code _ hcount, ← ofHexDigits, hvalue, hlength,
    quotedFrom?, if_pos rfl, if_neg (by omega), charOfCode?_toNat]
  rfl

theorem quotedFrom?_short {c m : Char} (hmeaning : shortMeaning? c = some m) (rest : List Char) :
    quotedFrom? false .between ('\\' :: c :: rest) =
      (quotedFrom? false .between rest).map (prepend m) := by
  -- The letters of code points and bytes mean no character by themselves.
  have hsome : (shortMeaning? c).isSome = true := by rw [hmeaning, Option.isSome_some]
  have hcode : c ≠ 'u' := by
    rintro rfl
    exact absurd hsome (by decide)
  have hbyte : c ≠ 'x' := by
    rintro rfl
    exact absurd hsome (by decide)
  rw [quotedFrom?, hmeaning]
  · exact fun _ heq => absurd heq hcode
  · exact fun _ _ _ heq => absurd heq hbyte

/-- An escape is undone, whatever follows it. -/
theorem quotedFrom?_escape (c : Char) (rest : List Char) :
    quotedFrom? false .between (Text.escape true c ++ rest) =
      (quotedFrom? false .between rest).map (prepend c) := by
  unfold Text.escape
  -- Four controls have letters of their own.
  iterate 4
    split
    · next h =>
        subst h
        exact quotedFrom?_short rfl rest
  split
  · next h =>
      have hmark : c = '\\' ∨ c = '\x22' ∨ c = '\x27' := by simpa using h
      exact quotedFrom?_short (shortMeaning?_mark hmark) rest
  · next h =>
      rw [not_or, not_or] at h
      split
      · exact quotedFrom?_plain false h.2.1 h.1 rest
      · have hcode := quotedFrom?_hexChars c rest
        simpa using hcode

/-- A text is read up to its closing quote. -/
theorem quoted?_escape (cs rest : List Char) :
    quoted? (cs.flatMap (Text.escape true) ++ '\x22' :: rest) = some (cs, rest) := by
  induction cs with
  | nil => rfl
  | cons c cs ih =>
      rw [quoted?] at ih ⊢
      rw [List.flatMap_cons, List.append_assoc, quotedFrom?_escape, ih]
      rfl

end BehaviorGraph.Ron
