import BehaviorGraph.Proofs.JsonLiterals
/-!
# JSON Texts Read Back

The reader of a value takes exactly the text that the value was written as.

White space comes in three places: in front of an item, in front of what closes the
items, and behind the colon of a member. The reader drops it wherever it wants a token,
so all that is used of a layout is that it adds nothing else. The items of an array and
the members of an object are then one case: texts between commas, each of which is read
up to the comma or the closing character behind it.

The reader recurses to a given depth. What a value contains is written shorter than the
value itself, so the length of the text is depth enough.

## Main definitions

* `Json.Written`: The literals in a value can be written.
* `Json.IsBlank`: There is nothing but white space.
* `Json.joined`: Texts between commas.

## Theorems

* `Json.group?_joined`: Items between commas are read back.
* `Json.value?_render`: A written value is read back, whatever follows it.
* `Json.parse?_render`: A written value is read back from its text.
-/

namespace BehaviorGraph.Json

/-- All numbers and strings in a value can be written. -/
inductive Written : Json → Prop
  /-- The null value can be written. -/
  | null : Written .null
  /-- Truth values can be written. -/
  | bool (b : Bool) : Written (.bool b)
  /-- A number can be written if its literal can. -/
  | number {lit : NumberLiteral} (hlit : lit.IsWritten) : Written (.number lit)
  /-- A string can be written if its items can. -/
  | string {items : List StringItem} (hitems : ∀ i ∈ items, i.isWritten = true) :
      Written (.string items)
  /-- An array can be written if its elements can. -/
  | array {vs : List Json} (hvs : ∀ v ∈ vs, Written v) : Written (.array vs)
  /-- An object can be written if the names and values of its members can. -/
  | object {ms : List (List StringItem × Json)}
      (hnames : ∀ m ∈ ms, ∀ i ∈ m.1, i.isWritten = true) (hvalues : ∀ m ∈ ms, Written m.2) :
      Written (.object ms)

/-! ### White space -/

/-- There is nothing but white space. -/
def IsBlank (cs : List Char) : Prop :=
  ∀ c ∈ cs, isSpace c = true

theorem isBlank_indent (layout : Layout) (depth : Nat) : IsBlank (indent layout depth) := by
  cases layout with
  | compact => exact fun c hc => absurd hc List.not_mem_nil
  | lines =>
      intro c hc
      rcases List.mem_cons.1 hc with rfl | hspace
      · rfl
      · rw [List.eq_of_mem_replicate hspace]
        rfl

theorem colon_eq (layout : Layout) : ∃ gap, layout.colon = ':' :: gap ∧ IsBlank gap := by
  cases layout with
  | compact => exact ⟨[], rfl, fun c hc => absurd hc List.not_mem_nil⟩
  | lines => exact ⟨[' '], rfl, List.forall_mem_singleton.2 rfl⟩

theorem skipSpace_append {gap : List Char} (hgap : IsBlank gap) (cs : List Char) :
    skipSpace (gap ++ cs) = skipSpace cs :=
  List.dropWhile_append_of_pos hgap

theorem skipSpace_cons {c : Char} (hc : isSpace c = false) (cs : List Char) :
    skipSpace (c :: cs) = c :: cs :=
  List.dropWhile_cons_of_neg (by simp [hc])

/-- A number ends in front of white space, and else where it ended without it. -/
theorem EndsNumber.append {gap rest : List Char} (hgap : IsBlank gap) (hrest : EndsNumber rest) :
    EndsNumber (gap ++ rest) := by
  rcases gap with _ | ⟨c, gap⟩
  · exact hrest
  · intro c' hc'
    have hspace : isSpace c' = true := hgap c' (by rw [← Option.some.inj hc']; simp)
    simp only [isSpace, Bool.or_eq_true, decide_eq_true_eq] at hspace
    rcases hspace with ((rfl | rfl) | rfl) | rfl <;> decide

theorem value?_append {gap : List Char} (hgap : IsBlank gap) (n : Nat) (cs : List Char) :
    value? n (gap ++ cs) = value? n cs := by
  cases n with
  | zero => rfl
  | succ n => rw [value?, value?, skipSpace_append hgap]

/-! ### Items between commas -/

section Items

variable {α : Type} {text : α → List Char} {x : α} {xs : List α}

/-- The texts of items, between commas. -/
def joined (text : α → List Char) (x : α) (xs : List α) : List Char :=
  text x ++ xs.flatMap fun y => ',' :: text y

theorem joined_cons (y : α) (ys : List α) (rest : List Char) :
    joined text x (y :: ys) ++ rest = text x ++ ',' :: (joined text y ys ++ rest) := by
  simp [joined]

theorem length_le_joined : xs.length ≤ (joined text x xs).length := by
  induction xs generalizing x with
  | nil => exact Nat.zero_le _
  | cons y ys ih =>
      have htail := @ih y
      have hsplit := congrArg List.length (@joined_cons α text x y ys [])
      simp only [List.append_nil, List.length_append, List.length_cons] at hsplit ⊢
      omega

theorem length_text_le_joined {y : α} (hy : y ∈ x :: xs) :
    (text y).length ≤ (joined text x xs).length := by
  induction xs generalizing x with
  | nil =>
      rw [List.mem_singleton.1 hy]
      simp [joined]
  | cons z zs ih =>
      have hsplit := congrArg List.length (@joined_cons α text x z zs [])
      simp only [List.append_nil, List.length_append, List.length_cons] at hsplit
      rcases List.mem_cons.1 hy with rfl | htail
      · omega
      · have hle := @ih z htail
        omega

variable {close : Char} {gap rest : List Char} {item? : List Char → Option (α × List Char)}

/-- Items are read one after the other, up to the closing character. -/
theorem items?_joined (hgap : IsBlank gap) (hspace : isSpace close = false)
    (hnumber : continuesNumber close = false) (hcomma : close ≠ ',')
    (hread : ∀ y ∈ x :: xs, ∀ cs, EndsNumber cs → item? (text y ++ cs) = some (y, cs))
    {steps : Nat} (hsteps : xs.length < steps) :
    items? close item? steps (joined text x xs ++ (gap ++ close :: rest)) =
      some (x :: xs, rest) := by
  induction xs generalizing x steps with
  | nil =>
      obtain ⟨steps, rfl⟩ := Nat.exists_eq_succ_of_ne_zero (Nat.ne_of_gt hsteps)
      have hends := (endsNumber_cons hnumber rest).append hgap
      have hitem := hread x List.mem_cons_self _ hends
      simp only [joined, List.flatMap_nil, List.append_nil, items?, hitem, skipSpace_append hgap,
        skipSpace_cons hspace, hcomma, ↓reduceIte]
  | cons y ys ih =>
      obtain ⟨steps, rfl⟩ := Nat.exists_eq_succ_of_ne_zero (Nat.ne_of_gt (Nat.zero_lt_of_lt hsteps))
      have htail := @ih y (fun z hz => hread z (List.mem_cons_of_mem x hz)) steps
        (Nat.lt_of_succ_lt_succ hsteps)
      have hends : EndsNumber (',' :: (joined text y ys ++ (gap ++ close :: rest))) :=
        endsNumber_cons (by decide) _
      have hitem := hread x List.mem_cons_self _ hends
      have hskip : isSpace ',' = false := by decide
      simp only [joined_cons, items?, hitem, skipSpace_cons hskip, ↓reduceIte, htail,
        Option.map_some]

/-- Items are read up to the closing character, if the first does not start with it. -/
theorem group?_joined (hgap : IsBlank gap) (hspace : isSpace close = false)
    (hnumber : continuesNumber close = false) (hcomma : close ≠ ',')
    (hfirst : ∀ cs, ∃ c cs', skipSpace (text x ++ cs) = c :: cs' ∧ c ≠ close)
    (hread : ∀ y ∈ x :: xs, ∀ cs, EndsNumber cs → item? (text y ++ cs) = some (y, cs)) :
    group? close item? (joined text x xs ++ (gap ++ close :: rest)) = some (x :: xs, rest) := by
  -- Every further item has a comma, so the text is long enough for a step each.
  have hsteps : xs.length < (joined text x xs ++ (gap ++ close :: rest)).length := by
    have hle : xs.length ≤ (joined text x xs).length := length_le_joined
    simp only [List.length_append, List.length_cons]
    omega
  have hitems : items? close item? _ (joined text x xs ++ (gap ++ close :: rest)) =
      some (x :: xs, rest) := items?_joined hgap hspace hnumber hcomma hread hsteps
  rw [joined, List.append_assoc] at hitems ⊢
  rcases hfirst (xs.flatMap (fun y => ',' :: text y) ++ (gap ++ close :: rest)) with
    ⟨c, cs, hskip, hc⟩
  rw [group?, hskip]
  simp only [hc, ↓reduceIte, hitems]

end Items

/-! ### Values -/

/-- An element behind the white space of its line. -/
def elementChars (layout : Layout) (depth : Nat) (v : Json) : List Char :=
  indent layout depth ++ render layout depth v

/-- A member behind the white space of its line. -/
def memberChars (layout : Layout) (depth : Nat) (m : List StringItem × Json) : List Char :=
  indent layout depth ++ stringChars m.1 ++ layout.colon ++ render layout depth m.2

theorem renderElements_eq_flatMap (layout : Layout) (depth : Nat) (vs : List Json) :
    renderElements layout depth vs = vs.flatMap fun v => ',' :: elementChars layout depth v := by
  induction vs with
  | nil => rfl
  | cons v vs ih =>
      rw [List.flatMap_cons, ← ih]
      rfl

theorem renderMembers_eq_flatMap (layout : Layout) (depth : Nat)
    (ms : List (List StringItem × Json)) :
    renderMembers layout depth ms = ms.flatMap fun m => ',' :: memberChars layout depth m := by
  induction ms with
  | nil => rfl
  | cons m ms ih =>
      rw [List.flatMap_cons, ← ih]
      rfl

theorem render_array (layout : Layout) (depth : Nat) (v : Json) (vs : List Json) :
    render layout depth (.array (v :: vs)) =
      '[' :: (joined (elementChars layout (depth + 1)) v vs ++ (indent layout depth ++ [']'])) := by
  rw [joined, ← renderElements_eq_flatMap, ← List.append_assoc]
  rfl

theorem render_object (layout : Layout) (depth : Nat) (m : List StringItem × Json)
    (ms : List (List StringItem × Json)) :
    render layout depth (.object (m :: ms)) =
      '\x7b' :: (joined (memberChars layout (depth + 1)) m ms ++
        (indent layout depth ++ ['\x7d'])) := by
  rw [joined, ← renderMembers_eq_flatMap, ← List.append_assoc]
  rfl

/-- The characters that a number starts with: the sign and the digits. -/
def numberStarts : List Char :=
  ['-', '0', '1', '2', '3', '4', '5', '6', '7', '8', '9']

/-- The characters that values of the other kinds start with, and what closes a list. -/
def otherStarts : List Char :=
  ['\x22', '[', '\x7b', 'n', 't', 'f', ']']

theorem toChar_mem_numberStarts : ∀ d : Digit, d.toChar ∈ numberStarts := by
  decide

theorem exists_numberChars_eq {lit : NumberLiteral} (hlit : lit.IsWritten) :
    ∃ c cs, numberChars lit = c :: cs ∧ c ∈ numberStarts := by
  rcases hwhole : lit.whole with _ | ⟨d, ds⟩
  · exact absurd hwhole hlit.whole_ne_nil
  · rcases hnegative : lit.negative with _ | _
    · refine ⟨d.toChar, _, by simp [numberChars, hnegative, hwhole, digitChars]; rfl, ?_⟩
      exact toChar_mem_numberStarts d
    · exact ⟨'-', _, by simp [numberChars, hnegative]; rfl, List.mem_cons_self⟩

theorem numberStarts_spec : ∀ c ∈ numberStarts, isSpace c = false ∧ c ∉ otherStarts := by
  simp [numberStarts, otherStarts, isSpace]

/-- A value starts with a character that is neither space nor closes a list. -/
theorem exists_render_eq {v : Json} (hv : Written v) (layout : Layout) (depth : Nat) :
    ∃ c cs, render layout depth v = c :: cs ∧ isSpace c = false ∧ c ≠ ']' := by
  cases hv with
  | null => exact ⟨'n', "ull".toList, rfl, by decide, by decide⟩
  | bool b =>
      cases b
      · exact ⟨'f', "alse".toList, rfl, by decide, by decide⟩
      · exact ⟨'t', "rue".toList, rfl, by decide, by decide⟩
  | number hlit =>
      rcases exists_numberChars_eq hlit with ⟨c, cs, heq, hc⟩
      rcases numberStarts_spec c hc with ⟨hspace, hother⟩
      refine ⟨c, cs, heq, hspace, ?_⟩
      rintro rfl
      exact hother (by decide)
  | string hitems => exact ⟨'\x22', _, rfl, by decide, by decide⟩
  | @array vs hvs =>
      rcases vs with _ | ⟨v, vs⟩
      · exact ⟨'[', [']'], rfl, by decide, by decide⟩
      · exact ⟨'[', _, render_array layout depth v vs, by decide, by decide⟩
  | @object ms hnames hvalues =>
      rcases ms with _ | ⟨m, ms⟩
      · exact ⟨'\x7b', ['\x7d'], rfl, by decide, by decide⟩
      · exact ⟨'\x7b', _, render_object layout depth m ms, by decide, by decide⟩

theorem value?_numberChars {lit : NumberLiteral} (hlit : lit.IsWritten) {rest : List Char}
    (hrest : EndsNumber rest) (n : Nat) :
    value? (n + 1) (numberChars lit ++ rest) = some (.number lit, rest) := by
  have hnumber := number?_numberChars hlit hrest
  rcases exists_numberChars_eq hlit with ⟨c, cs, heq, hc⟩
  rcases numberStarts_spec c hc with ⟨hspace, hother⟩
  rw [heq, List.cons_append] at hnumber ⊢
  have hne : ∀ c' ∈ otherStarts, c ≠ c' := fun c' hc' heq' => hother (heq' ▸ hc')
  rw [value?, skipSpace_cons hspace]
  -- The last case is that of numbers; the others ask for a different first character.
  split
  case h_7 => rw [hnumber, Option.map_some]
  all_goals
    rename_i heq'
    exact absurd (List.cons.inj heq').1 (hne _ (by decide))

/-- A member is read, if its value is. -/
theorem member?_memberChars {layout : Layout} {depth n : Nat} {m : List StringItem × Json}
    (hname : ∀ i ∈ m.1, i.isWritten = true)
    (hvalue : ∀ cs, EndsNumber cs → value? n (render layout depth m.2 ++ cs) = some (m.2, cs))
    {cs : List Char} (hcs : EndsNumber cs) :
    member? (value? n) (memberChars layout depth m ++ cs) = some (m, cs) := by
  rcases colon_eq layout with ⟨gap, hcolon, hgap⟩
  have hquote : isSpace '\x22' = false := by decide
  have hmark : isSpace ':' = false := by decide
  -- What stands behind the colon is left to the reader of the value.
  have hread := hvalue cs hcs
  rw [← value?_append hgap] at hread
  simp only [memberChars, stringChars, hcolon, List.append_assoc, List.cons_append,
    List.nil_append, member?, skipSpace_append (isBlank_indent layout depth),
    skipSpace_cons hquote, string?, stringItems?_itemChars hname, skipSpace_cons hmark, hread,
    Option.map_some]

theorem value?_string {items : List StringItem} (hitems : ∀ i ∈ items, i.isWritten = true)
    (rest : List Char) (n : Nat) :
    value? (n + 1) (stringChars items ++ rest) = some (.string items, rest) := by
  have hquote : isSpace '\x22' = false := by decide
  rw [stringChars, List.cons_append, List.append_assoc, List.singleton_append, value?,
    skipSpace_cons hquote]
  simp only [stringItems?_itemChars hitems, Option.map_some]

/-- An array is read, if its elements are. -/
theorem value?_array {vs : List Json} (hvs : ∀ v ∈ vs, Written v) {layout : Layout}
    {depth n : Nat} (hread : ∀ v ∈ vs, ∀ cs, EndsNumber cs →
      value? n (render layout (depth + 1) v ++ cs) = some (v, cs)) (rest : List Char) :
    value? (n + 1) (render layout depth (.array vs) ++ rest) = some (.array vs, rest) := by
  rcases vs with _ | ⟨v, vs⟩
  · rfl
  · have hitems : ∀ v' ∈ v :: vs, ∀ cs, EndsNumber cs →
        value? n (elementChars layout (depth + 1) v' ++ cs) = some (v', cs) := by
      intro v' hv' cs hcs
      rw [elementChars, List.append_assoc, value?_append (isBlank_indent layout _)]
      exact hread v' hv' cs hcs
    have hfirst : ∀ cs, ∃ c cs',
        skipSpace (elementChars layout (depth + 1) v ++ cs) = c :: cs' ∧ c ≠ ']' := by
      intro cs
      rcases exists_render_eq (hvs v List.mem_cons_self) layout (depth + 1) with
        ⟨c, cs', heq, hspace, hc⟩
      rw [elementChars, List.append_assoc, skipSpace_append (isBlank_indent layout _), heq,
        List.cons_append, skipSpace_cons hspace]
      exact ⟨c, _, rfl, hc⟩
    have hbracket : isSpace '[' = false := by decide
    have hgroup : group? ']' (value? n) (joined (elementChars layout (depth + 1)) v vs ++
        (indent layout depth ++ ']' :: rest)) = some (v :: vs, rest) :=
      group?_joined (isBlank_indent layout depth) (by decide) (by decide) (by decide) hfirst hitems
    simp only [render_array, List.cons_append, List.append_assoc, List.nil_append, value?,
      skipSpace_cons hbracket, hgroup, Option.map_some]

/-- An object is read, if the values of its members are. -/
theorem value?_object {ms : List (List StringItem × Json)}
    (hnames : ∀ m ∈ ms, ∀ i ∈ m.1, i.isWritten = true) {layout : Layout} {depth n : Nat}
    (hread : ∀ m ∈ ms, ∀ cs, EndsNumber cs →
      value? n (render layout (depth + 1) m.2 ++ cs) = some (m.2, cs)) (rest : List Char) :
    value? (n + 1) (render layout depth (.object ms) ++ rest) = some (.object ms, rest) := by
  rcases ms with _ | ⟨m, ms⟩
  · rfl
  · have hitems : ∀ m' ∈ m :: ms, ∀ cs, EndsNumber cs →
        member? (value? n) (memberChars layout (depth + 1) m' ++ cs) = some (m', cs) :=
      fun m' hm' cs hcs => member?_memberChars (hnames m' hm') (hread m' hm') hcs
    have hfirst : ∀ cs, ∃ c cs',
        skipSpace (memberChars layout (depth + 1) m ++ cs) = c :: cs' ∧ c ≠ '\x7d' := by
      intro cs
      have hquote : isSpace '\x22' = false := by decide
      simp only [memberChars, stringChars, List.append_assoc, List.cons_append,
        skipSpace_append (isBlank_indent layout _), skipSpace_cons hquote]
      exact ⟨_, _, rfl, by decide⟩
    have hbrace : isSpace '\x7b' = false := by decide
    have hgroup : group? '\x7d' (member? (value? n))
        (joined (memberChars layout (depth + 1)) m ms ++ (indent layout depth ++ '\x7d' :: rest)) =
          some (m :: ms, rest) :=
      group?_joined (isBlank_indent layout depth) (by decide) (by decide) (by decide) hfirst hitems
    simp only [render_object, List.cons_append, List.append_assoc, List.nil_append, value?,
      skipSpace_cons hbrace, hgroup, Option.map_some]

theorem length_render_element {vs : List Json} {v : Json} (hv : v ∈ vs) (layout : Layout)
    (depth : Nat) :
    (render layout (depth + 1) v).length < (render layout depth (.array vs)).length := by
  rcases vs with _ | ⟨v', vs⟩
  · exact absurd hv List.not_mem_nil
  · have hle : (elementChars layout (depth + 1) v).length ≤ _ := length_text_le_joined hv
    simp only [render_array, elementChars, List.length_append, List.length_cons] at hle ⊢
    omega

theorem length_render_member {ms : List (List StringItem × Json)} {m : List StringItem × Json}
    (hm : m ∈ ms) (layout : Layout) (depth : Nat) :
    (render layout (depth + 1) m.2).length < (render layout depth (.object ms)).length := by
  rcases ms with _ | ⟨m', ms⟩
  · exact absurd hm List.not_mem_nil
  · have hle : (memberChars layout (depth + 1) m).length ≤ _ := length_text_le_joined hm
    simp only [render_object, memberChars, List.length_append, List.length_cons] at hle ⊢
    omega

/-- A written value is read back, whatever follows it. What it contains has a shorter text,
    so the length of the text bounds the depth that is needed. -/
theorem value?_render {v : Json} (hv : Written v) (layout : Layout) {depth n : Nat}
    (hn : (render layout depth v).length ≤ n) {rest : List Char} (hrest : EndsNumber rest) :
    value? (n + 1) (render layout depth v ++ rest) = some (v, rest) := by
  induction hv generalizing depth n rest with
  | null => rfl
  | bool b => cases b <;> rfl
  | number hlit => exact value?_numberChars hlit hrest n
  | string hitems => exact value?_string hitems rest n
  | array hvs ih =>
      -- The elements have shorter texts, so there is depth left for them.
      refine value?_array hvs (fun v hv cs hcs => ?_) rest
      have hlt := length_render_element hv layout depth
      obtain ⟨m, rfl⟩ : ∃ m, n = m + 1 := ⟨n - 1, by omega⟩
      exact ih v hv (by omega) hcs
  | object hnames hvalues ih =>
      refine value?_object hnames (fun m hm cs hcs => ?_) rest
      have hlt := length_render_member hm layout depth
      obtain ⟨n, rfl⟩ : ∃ n', n = n' + 1 := ⟨n - 1, by omega⟩
      exact ih m hm (by omega) hcs

/-- A value is read back from its text. -/
theorem parse?_render {v : Json} (hv : Written v) (layout : Layout) :
    parse? (String.ofList (render layout 0 v)) = some v := by
  have hends : EndsNumber [] := fun c hc => absurd hc (Option.not_mem_none c)
  have hread := value?_render hv layout (Nat.le_refl (render layout 0 v).length) hends
  rw [List.append_nil] at hread
  rw [parse?, String.toList_ofList, hread]
  rfl

end BehaviorGraph.Json
