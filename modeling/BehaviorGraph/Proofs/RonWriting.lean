import BehaviorGraph.Proofs.RonNumbers
import BehaviorGraph.Ron.Outline
/-!
# What RON Values Are Written As

The text of a value starts with a character that tells what it is, and its items are texts
between commas.

Not every tree has a text that is read as the same tree. Names and tokens have to look like
what they are, a tuple without items and a record without members look alike, and the
reader has a budget of nesting, so a tree is written for a budget too.

What stands in parentheses is told apart by its beginning. The members of a record start with
a name and a colon, and no value is written that does, since no value is followed by a
colon unless it is the key of a map.

## Main definitions

* `Ron.Written`: The value can be written and nests no deeper than a budget.
* `Ron.startsValue`: A value can start with the character.
* `Ron.joined`: Texts between commas.
* `Ron.entryChars`: A key, a colon and a value.

## Theorems

* `Ron.exists_render_eq`: A value starts with a character that starts values.
* `Ron.render_list`, `Ron.render_map`, `Ron.render_tuple`, `Ron.render_record`: Items are
  written as texts between commas.
* `Ron.isMember_render`: No item is taken for a member of a record.
-/

namespace BehaviorGraph.Ron

/-- The value can be written, and a budget of nesting is enough to read it. -/
inductive Written : Nat → Ron → Prop
  /-- A name that stands for itself. -/
  | name {n : Nat} {s : String} (hs : isBareName s = true) : Written n (.name s)
  /-- A number. -/
  | number {n : Nat} {token : List Char} (htoken : isNumberToken token = true) :
      Written n (.number token)
  /-- Any text. -/
  | text {n : Nat} (s : String) : Written n (.text s)
  /-- The missing value. -/
  | missing {n : Nat} : Written n .missing
  /-- A present value costs one. -/
  | present {n : Nat} {v : Ron} (hv : Written n v) : Written (n + 1) (.present v)
  /-- A list costs two. -/
  | list {n : Nat} {vs : List Ron} (hvs : ∀ v ∈ vs, Written n v) : Written (n + 2) (.list vs)
  /-- A map costs two. -/
  | map {n : Nat} {es : List (Ron × Ron)} (hkeys : ∀ e ∈ es, Written n e.1)
      (hvalues : ∀ e ∈ es, Written n e.2) : Written (n + 2) (.map es)
  /-- A tuple costs two. Without items it would look like a record. -/
  | tuple {n : Nat} {vs : List Ron} (hne : vs ≠ []) (hvs : ∀ v ∈ vs, Written n v) :
      Written (n + 2) (.tuple none vs)
  /-- A record costs two. Without members it would look like a tuple. -/
  | record {n : Nat} {typeName : Option String} {ms : List (String × Ron)} (hne : ms ≠ [])
      (htype : ∀ t ∈ typeName, isBareName t = true)
      (hnames : ∀ m ∈ ms, isWord m.1.toList = true) (hvalues : ∀ m ∈ ms, Written n m.2) :
      Written (n + 2) (.record typeName ms)

/-! ### How values start -/

/-- A value can start with the character: it is neither dropped nor does it close anything. -/
def startsValue (c : Char) : Bool :=
  !startsGap c && c ∉ ['#', ')', ']', '\x7d']

theorem startsName_of_isSpace {c : Char} (hc : isSpace c = true) : startsName c = false := by
  have hspaces : ∀ n ∈ [9, 10, 11, 12, 13, 0x20, 0x85, 0x200e, 0x200f, 0x2028, 0x2029],
      startsName (Char.ofNat n) = false := by
    decide +kernel
  have hmem : c.toNat ∈ [9, 10, 11, 12, 13, 0x20, 0x85, 0x200e, 0x200f, 0x2028, 0x2029] := by
    simp only [isSpace, Bool.or_eq_true, Bool.and_eq_true, decide_eq_true_eq] at hc
    simp only [List.mem_cons, List.not_mem_nil, or_false]
    omega
  have hname := hspaces c.toNat hmem
  rwa [Char.ofNat_toNat] at hname

theorem startsValue_of_startsName {c : Char} (hc : startsName c = true) :
    startsValue c = true := by
  have hspace : isSpace c = false := by
    by_contra hspace
    rw [startsName_of_isSpace (Bool.eq_true_of_not_eq_false hspace)] at hc
    exact Bool.false_ne_true hc
  have hmark : c ∉ ['/', '#', ')', ']', '\x7d'] := by
    have hmarks : ∀ c ∈ ['/', '#', ')', ']', '\x7d'], startsName c = false :=
      forall_mem_eq_false (by decide)
    intro hmem
    rw [hmarks c hmem] at hc
    exact Bool.false_ne_true hc
  rw [List.mem_cons, not_or] at hmark
  rw [startsValue, startsGap, hspace, decide_eq_false hmark.1, decide_eq_true hmark.2]
  rfl

theorem startsValue_of_startsNumber {c : Char} (hc : startsNumber c = true) :
    startsValue c = true :=
  startsNumber_cases (p := fun c => startsValue c = true) (by decide) (by decide) (by decide)
    (by decide) hc

/-- What the tokens of numbers start with. -/
theorem isNumberToken_cases {token : List Char} (htoken : isNumberToken token = true) :
    token = "inf".toList ∨ ∃ c cs, token = c :: cs ∧ startsNumber c = true ∧
      token.all isTokenChar = true ∧ isNumber token = true := by
  simp only [isNumberToken, Bool.or_eq_true, Bool.and_eq_true, decide_eq_true_eq] at htoken
  rcases htoken with hinf | ⟨⟨hhead, hchars⟩, hnumber⟩
  · exact Or.inl hinf
  · rcases token with _ | ⟨c, cs⟩
    · exact absurd hhead (by decide)
    · exact Or.inr ⟨c, cs, rfl, hhead, hchars, hnumber⟩

theorem exists_word_eq {cs : List Char} (hcs : isWord cs = true) :
    ∃ c cs', cs = c :: cs' ∧ startsName c = true := by
  rcases cs with _ | ⟨c, cs⟩
  · exact absurd hcs (by decide)
  · exact ⟨c, cs, rfl, (Bool.and_eq_true_iff.1 hcs).1⟩

/-- Whatever the value, there is a character that starts it. -/
theorem exists_render_eq {n : Nat} {v : Ron} (hv : Written n v) (layout : Layout) (depth : Nat) :
    ∃ c cs, render layout depth v = c :: cs ∧ startsValue c = true := by
  cases hv with
  | name hs =>
      rcases exists_word_eq (isWord_of_isBareName hs) with ⟨c, cs, heq, hc⟩
      exact ⟨c, cs, heq, startsValue_of_startsName hc⟩
  | number htoken =>
      rcases isNumberToken_cases htoken with rfl | ⟨c, cs, rfl, hc, _⟩
      · exact ⟨'i', ['n', 'f'], rfl, by decide⟩
      · exact ⟨c, cs, rfl, startsValue_of_startsNumber hc⟩
  | text s => exact ⟨'\x22', _, rfl, by decide⟩
  | missing => exact ⟨'N', _, rfl, by decide⟩
  | present hv => exact ⟨'S', _, rfl, by decide⟩
  | @list _ vs hvs => rcases vs with _ | ⟨v, vs⟩ <;> exact ⟨'[', _, rfl, by decide⟩
  | @map _ es _ _ => rcases es with _ | ⟨e, es⟩ <;> exact ⟨'\x7b', _, rfl, by decide⟩
  | @tuple _ vs hne _ =>
      rcases vs with _ | ⟨v, vs⟩
      · exact absurd rfl hne
      · exact ⟨'(', _, rfl, by decide⟩
  | @record _ typeName ms hne htype _ _ =>
      rcases ms with _ | ⟨m, ms⟩
      · exact absurd rfl hne
      · rcases typeName with _ | t
        · exact ⟨'(', _, rfl, by decide⟩
        · rcases exists_word_eq (isWord_of_isBareName (htype t rfl)) with ⟨c, cs, heq, hc⟩
          have htext : typeNameChars (some t) = c :: cs := heq
          exact ⟨c, _, congrArg (· ++ _) htext, startsValue_of_startsName hc⟩

/-- There is no white space in front of a value. -/
theorem skip?_of_startsValue {c : Char} (hc : startsValue c = true) (cs : List Char) :
    skip? (c :: cs) = some (c :: cs) := by
  refine skip?_cons ?_ cs
  rw [startsValue, Bool.and_eq_true, Bool.not_eq_true'] at hc
  exact hc.1

theorem skip?_render {n : Nat} {v : Ron} (hv : Written n v) (layout : Layout) (depth : Nat)
    (cs : List Char) :
    skip? (render layout depth v ++ cs) = some (render layout depth v ++ cs) := by
  rcases exists_render_eq hv layout depth with ⟨c, cs', heq, hc⟩
  rw [heq, List.cons_append, skip?_of_startsValue hc]

/-! ### Items between commas -/

section Items

variable {α : Type} {text : α → List Char} {gap : List Char} {x : α} {xs : List α}

/-- The texts of items, white space behind the commas between them. -/
def joined (text : α → List Char) (gap : List Char) (x : α) (xs : List α) : List Char :=
  text x ++ xs.flatMap fun y => ',' :: (gap ++ text y)

theorem joined_cons (y : α) (ys : List α) (cs : List Char) :
    joined text gap x (y :: ys) ++ cs = text x ++ ',' :: (gap ++ (joined text gap y ys ++ cs)) := by
  simp [joined]

theorem length_le_joined : xs.length ≤ (joined text gap x xs).length := by
  induction xs generalizing x with
  | nil => exact Nat.zero_le _
  | cons y ys ih =>
      have htail := @ih y
      have hsplit := congrArg List.length (@joined_cons α text gap x y ys [])
      simp only [List.append_nil, List.length_append, List.length_cons] at hsplit ⊢
      omega

end Items

/-- A key, a colon and a value. -/
def entryChars {α : Type} (key : α → List Char) (layout : Layout) (depth : Nat) (e : α × Ron) :
    List Char :=
  key e.1 ++ (layout.colon ++ render layout depth e.2)

section Render

variable (layout : Layout) (depth : Nat) (rest : List Char)

theorem render_present (v : Ron) :
    render layout depth (.present v) ++ rest =
      "Some".toList ++ '(' :: (render layout depth v ++ ')' :: rest) := by
  have htext : render layout depth (.present v) =
      "Some(".toList ++ render layout depth v ++ [')'] := rfl
  simp [htext]

theorem renderItems_eq_flatMap (vs : List Ron) :
    renderItems layout depth vs =
      vs.flatMap fun v => ',' :: (indent layout depth ++ render layout depth v) := by
  induction vs with
  | nil => rfl
  | cons v vs ih =>
      rw [List.flatMap_cons, ← ih]
      rfl

theorem render_list (v : Ron) (vs : List Ron) :
    render layout depth (.list (v :: vs)) ++ rest =
      '[' :: (indent layout (depth + 1) ++
        (joined (render layout (depth + 1)) (indent layout (depth + 1)) v vs ++
          (closing layout depth ++ ']' :: rest))) := by
  have htext : render layout depth (.list (v :: vs)) =
      '[' :: (indent layout (depth + 1) ++ render layout (depth + 1) v
        ++ renderItems layout (depth + 1) vs ++ closing layout depth ++ [']']) := rfl
  simp [htext, joined, renderItems_eq_flatMap]

theorem renderEntries_eq_flatMap (es : List (Ron × Ron)) :
    renderEntries layout depth es = es.flatMap fun e => ',' :: (indent layout depth ++
      entryChars (render layout depth) layout depth e) := by
  induction es with
  | nil => rfl
  | cons e es ih =>
      have htext : renderEntries layout depth (e :: es) =
          separator layout depth ++ render layout depth e.1 ++ layout.colon
            ++ render layout depth e.2 ++ renderEntries layout depth es := rfl
      simp [htext, separator, entryChars, ih]

theorem render_map (e : Ron × Ron) (es : List (Ron × Ron)) :
    render layout depth (.map (e :: es)) ++ rest =
      '\x7b' :: (indent layout (depth + 1) ++
        (joined (entryChars (render layout (depth + 1)) layout (depth + 1))
          (indent layout (depth + 1)) e es ++ (closing layout depth ++ '\x7d' :: rest))) := by
  have htext : render layout depth (.map (e :: es)) =
      '\x7b' :: (indent layout (depth + 1) ++ render layout (depth + 1) e.1 ++ layout.colon
        ++ render layout (depth + 1) e.2 ++ renderEntries layout (depth + 1) es
        ++ closing layout depth ++ ['\x7d']) := rfl
  simp [htext, joined, entryChars, renderEntries_eq_flatMap]

theorem renderParts_eq_flatMap {gap : List Char} (hgap : tupleSeparator layout = ',' :: gap)
    (vs : List Ron) :
    renderParts layout depth vs = vs.flatMap fun v => ',' :: (gap ++ render layout depth v) := by
  induction vs with
  | nil => rfl
  | cons v vs ih =>
      have htext : renderParts layout depth (v :: vs) =
          tupleSeparator layout ++ render layout depth v ++ renderParts layout depth vs := rfl
      simp [htext, hgap, ih]

theorem render_tuple {gap : List Char} (hgap : tupleSeparator layout = ',' :: gap) (v : Ron)
    (vs : List Ron) :
    render layout depth (.tuple none (v :: vs)) ++ rest =
      '(' :: (joined (render layout depth) gap v vs ++ ')' :: rest) := by
  have htext : render layout depth (.tuple none (v :: vs)) =
      '(' :: (render layout depth v ++ renderParts layout depth vs ++ [')']) := rfl
  simp [htext, joined, renderParts_eq_flatMap layout depth hgap]

theorem renderMembers_eq_flatMap (ms : List (String × Ron)) :
    renderMembers layout depth ms = ms.flatMap fun m => ',' :: (indent layout depth ++
      entryChars String.toList layout depth m) := by
  induction ms with
  | nil => rfl
  | cons m ms ih =>
      have htext : renderMembers layout depth (m :: ms) =
          separator layout depth ++ m.1.toList ++ layout.colon
            ++ render layout depth m.2 ++ renderMembers layout depth ms := rfl
      simp [htext, separator, entryChars, ih]

theorem render_record (typeName : Option String) (m : String × Ron) (ms : List (String × Ron)) :
    render layout depth (.record typeName (m :: ms)) ++ rest =
      typeNameChars typeName ++ '(' :: (indent layout (depth + 1) ++
        (joined (entryChars String.toList layout (depth + 1)) (indent layout (depth + 1)) m ms ++
          (closing layout depth ++ ')' :: rest))) := by
  have htext : render layout depth (.record typeName (m :: ms)) =
      typeNameChars typeName ++ '(' :: (indent layout (depth + 1) ++ m.1.toList ++ layout.colon
        ++ render layout (depth + 1) m.2 ++ renderMembers layout (depth + 1) ms
        ++ closing layout depth ++ [')']) := rfl
  simp [htext, joined, entryChars, renderMembers_eq_flatMap]

end Render

/-- A word is the beginning of a member only in front of a colon. -/
theorem isMember_word {cs rest : List Char} (hcs : isWord cs = true) (hrest : EndsToken rest) :
    isMember (cs ++ rest) = (char? ':' rest).isSome := by
  rw [isMember, name?_append hcs hrest]
  simp only [hrest.skip?_eq, Option.bind_some]

theorem isMember_cons {c : Char} (hc : startsName c = false) (cs : List Char) :
    isMember (c :: cs) = false := by
  rw [isMember, name?_eq_none hc]

/-- No value that is an item is taken for a member: behind its name, if it has one, there is no
    colon. -/
theorem isMember_render {n : Nat} {v : Ron} (hv : Written n v) (layout : Layout) (depth : Nat)
    {rest : List Char} (hrest : EndsToken rest) (hcolon : char? ':' rest = none) :
    isMember (render layout depth v ++ rest) = false := by
  have hword {cs rest : List Char} (hcs : isWord cs = true) (hrest : EndsToken rest)
      (hcolon : char? ':' rest = none) : isMember (cs ++ rest) = false := by
    rw [isMember_word hcs hrest, hcolon]
    rfl
  have hopen (cs : List Char) : EndsToken ('(' :: cs) := endsToken_cons (by decide) cs
  cases hv with
  | name hs => exact hword (isWord_of_isBareName hs) hrest hcolon
  | number htoken =>
      rcases isNumberToken_cases htoken with rfl | ⟨c, cs, rfl, hc, _⟩
      · have hinf : isWord "inf".toList = true := by decide
        exact hword hinf hrest hcolon
      · exact isMember_cons (startsName_of_startsNumber hc) _
  | text s => exact isMember_cons (by decide) _
  | missing =>
      have hnone : isWord "None".toList = true := by decide
      exact hword hnone hrest hcolon
  | @present _ v _ =>
      rw [render_present]
      exact hword (by decide) (hopen _) rfl
  | @list _ vs _ =>
      rcases vs with _ | ⟨v, vs⟩ <;> exact isMember_cons (by decide) _
  | @map _ es _ _ =>
      rcases es with _ | ⟨e, es⟩ <;> exact isMember_cons (by decide) _
  | @tuple _ vs hne _ =>
      rcases vs with _ | ⟨v, vs⟩
      · exact absurd rfl hne
      · exact isMember_cons (by decide) _
  | @record _ typeName ms hne htype _ _ =>
      rcases ms with _ | ⟨m, ms⟩
      · exact absurd rfl hne
      · rw [render_record]
        rcases typeName with _ | t
        · exact isMember_cons (by decide) _
        · exact hword (isWord_of_isBareName (htype t rfl)) (hopen _) rfl

end BehaviorGraph.Ron
