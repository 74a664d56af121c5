import BehaviorGraph.Proofs.RonWriting
import BehaviorGraph.Ron.Parser
/-!
# RON Texts Read Back

The reader of a value takes exactly the text that the value was written as, in both layouts.

Items of lists, maps, tuples and records are one case: texts between commas, white space
behind a comma, and perhaps a last comma in front of what closes them. Whatever is written
behind a value, it is a mark in front of which the value ends, and the reader goes on from
there.

Reading a value that is written for a smaller budget than what is left is no problem. So the
induction is on the value, the budget being any that is enough.

## Main definitions

* `Ron.IsPlain`: Neither a bracket nor a present value comes next.
* `Ron.Closes`: What stands behind the last item.
* `Ron.Reads`: The value is read from its text.

## Theorems

* `Ron.items?_joined`: Items between commas are read back.
* `Ron.value?_render`: A written value is read back, whatever mark follows it.
* `Ron.parse?_render`: A written value is read back from its text.
-/

namespace BehaviorGraph.Ron

/-! ### Budgets -/

theorem value?_succ (e : Extensions) (n : Nat) : ∃ (item? : Reader Ron)
    (bareItem? : Option (Reader Ron)), value? e (n + 1) = valueOf? e (value? e n) item? bareItem? :=
  match n with
  | 0 => ⟨_, _, rfl⟩
  | 1 => ⟨_, _, rfl⟩
  | _ + 2 => ⟨_, _, rfl⟩

theorem value?_add_two (e : Extensions) (n : Nat) : ∃ (content? : Reader Ron)
    (bareItem? : Option (Reader Ron)),
    value? e (n + 2) = valueOf? e content? (value? e n) bareItem? :=
  match n with
  | 0 => ⟨_, _, rfl⟩
  | _ + 1 => ⟨_, _, rfl⟩

/-! ### Values without parts -/

/-- Nothing that a bracket starts comes next, nor an optional value that is present. -/
def IsPlain (cs : List Char) : Prop :=
  (∀ c ∈ cs.head?, c ∉ ['(', '[', '\x7b']) ∧ word? "Some" cs = none

theorem IsPlain.atom? {cs : List Char} (h : IsPlain cs) :
    atom? cs = (leaf? cs).or ((name? cs).map fun (n, rest) => (.name n, rest)) := by
  rw [Ron.atom?, h.2]
  · rfl
  · rintro rest rfl
    exact h.1 '(' rfl (by decide)

theorem IsPlain.valueOf? {cs : List Char} (h : IsPlain cs) (e : Extensions)
    (content? item? : Reader Ron) (bareItem? : Option (Reader Ron)) :
    valueOf? e content? item? bareItem? cs = (leaf? cs).or (named? item? cs) := by
  rw [Ron.valueOf?, h.2]
  · rintro rest rfl
    exact h.1 '(' rfl (by decide)
  · rintro rest rfl
    exact h.1 '[' rfl (by decide)
  · rintro rest rfl
    exact h.1 '\x7b' rfl (by decide)

/-- What has no parts and is no name needs no budget. -/
theorem IsPlain.value?_of_leaf {cs : List Char} (h : IsPlain cs) {r : Ron × List Char}
    (hleaf : leaf? cs = some r) (e : Extensions) (n : Nat) : value? e n cs = some r := by
  rcases n with _ | n
  · rw [value?, h.atom?, hleaf, Option.some_or]
  · rcases value?_succ e n with ⟨item?, bareItem?, heq⟩
    rw [heq, h.valueOf?, hleaf, Option.some_or]

theorem isPlain_cons {c : Char} (hbracket : c ∉ ['(', '[', '\x7b']) (hname : startsName c = false)
    (cs : List Char) : IsPlain (c :: cs) := by
  refine ⟨fun c' hc' => ?_, word?_eq_none (by decide) hname cs⟩
  rw [← Option.some.inj hc']
  exact hbracket

/-- A name opens no bracket. -/
theorem isPlain_word {cs rest : List Char} (hcs : isWord cs = true)
    (hne : cs ≠ "Some".toList) (hrest : EndsToken rest) : IsPlain (cs ++ rest) := by
  have hbrackets : ∀ c ∈ ['(', '[', '\x7b'], startsName c = false :=
    forall_mem_eq_false (by decide)
  have hchars := (Bool.and_eq_true_iff.1 hcs).2
  refine ⟨fun c' hc' hmem => ?_, ?_⟩
  · rcases exists_word_eq hcs with ⟨c, cs', rfl, hname⟩
    rw [← Option.some.inj hc'] at hmem
    rw [hbrackets c hmem] at hname
    exact Bool.false_ne_true hname
  · rw [word?_append (by decide) hchars hrest, if_neg hne]

theorem value?_text (e : Extensions) (n : Nat) (s : String) (rest : List Char) :
    value? e n (Text.quote true s ++ rest) = some (.text s, rest) := by
  have hquote : startsName '\x22' = false := by decide
  have hread : quotation? (Text.quote true s ++ rest) = some (.text s, rest) := by
    simp [Text.quote, quotation?, quoted?_escape]
  rw [Text.quote, List.cons_append] at hread ⊢
  refine (isPlain_cons (by decide) hquote _).value?_of_leaf ?_ e n
  rw [leaf?, wordValue?_eq_none hquote, hread]
  rfl

theorem value?_missing (e : Extensions) (n : Nat) {rest : List Char} (hrest : EndsToken rest) :
    value? e n ("None".toList ++ rest) = some (.missing, rest) := by
  refine (isPlain_word (by decide) (by decide) hrest).value?_of_leaf ?_ e n
  rw [leaf?, wordValue?_missing hrest, Option.some_or]

theorem quotation?_eq_none {c : Char} (hc : c ∉ ['\x22', '\x27', 'b', 'r']) (cs : List Char) :
    quotation? (c :: cs) = none := by
  simp only [List.mem_cons, List.not_mem_nil, or_false, not_or] at hc
  rcases hc with ⟨hquote, hapostrophe, hbytes, hraw⟩
  unfold quotation?
  split
  · next heq => exact absurd (List.cons.inj heq).1 hquote
  · next heq => exact absurd (List.cons.inj heq).1 hapostrophe
  · next heq => exact absurd (List.cons.inj heq).1 hbytes
  · next heq => exact absurd (List.cons.inj heq).1 hbytes
  · next heq => exact absurd (List.cons.inj heq).1 hbytes
  · next heq => exact absurd (List.cons.inj heq).1 hraw
  · rfl

theorem value?_number (e : Extensions) (n : Nat) {token rest : List Char}
    (htoken : isNumberToken token = true) (hrest : EndsToken rest) :
    value? e n (token ++ rest) = some (.number token, rest) := by
  rcases isNumberToken_cases htoken with rfl | ⟨c, cs, rfl, hc, hchars, hnumber⟩
  · refine (isPlain_word (by decide) (by decide) hrest).value?_of_leaf ?_ e n
    rw [leaf?, wordValue?_infinity hrest, Option.some_or]
  · have hname := startsName_of_startsNumber hc
    have hbracket : c ∉ ['(', '[', '\x7b'] :=
      startsNumber_cases (p := fun c => c ∉ ['(', '[', '\x7b']) (by decide) (by decide)
        (by decide) (by decide) hc
    have hquote : c ∉ ['\x22', '\x27', 'b', 'r'] :=
      startsNumber_cases (p := fun c => c ∉ ['\x22', '\x27', 'b', 'r']) (by decide) (by decide)
        (by decide) (by decide) hc
    have hread : number? (c :: cs ++ rest) = some (.number (c :: cs), rest) :=
      number?_append hc hchars hnumber hrest
    rw [List.cons_append] at hread ⊢
    refine (isPlain_cons hbracket hname _).value?_of_leaf ?_ e n
    rw [leaf?, wordValue?_eq_none hname, quotation?_eq_none hquote, hread]
    rfl

theorem number?_eq_none {c : Char} (hc : startsName c = true) (cs : List Char) :
    number? (c :: cs) = none := by
  have hnumber : startsNumber c = false := by
    by_contra hnumber
    rw [startsName_of_startsNumber (Bool.eq_true_of_not_eq_false hnumber)] at hc
    exact Bool.false_ne_true hc
  rw [number?, List.head?_cons, Option.any_some, hnumber, Bool.false_and]
  rfl

/-- A bare name is a name, and it is not the word or the beginning of another value. -/
theorem isBareName_iff {s : String} : isBareName s = true ↔
    isWord s.toList = true ∧ s.toList.head? ≠ some 'b' ∧ s.toList.head? ≠ some 'r' ∧
      s ∉ valueWords := by
  simp [isBareName, and_assoc]

theorem isPlain_name {s : String} (hs : isBareName s = true) {rest : List Char}
    (hrest : EndsToken rest) : IsPlain (s.toList ++ rest) := by
  have hne : s ≠ "Some" := by
    rintro rfl
    exact (isBareName_iff.1 hs).2.2.2 (by decide)
  exact isPlain_word (isWord_of_isBareName hs) (fun heq => hne (String.toList_inj.1 heq)) hrest

theorem leaf?_eq_none {s : String} (hs : isBareName s = true) {rest : List Char}
    (hrest : EndsToken rest) : leaf? (s.toList ++ rest) = none := by
  rcases isBareName_iff.1 hs with ⟨hword, hb, hr, hvalue⟩
  have hwords : wordValue? (s.toList ++ rest) = none := by
    refine wordValue?_append_eq_none (Bool.and_eq_true_iff.1 hword).2 (fun w hw heq => ?_) hrest
    exact hvalue (String.toList_inj.1 heq ▸ hw)
  rcases exists_word_eq hword with ⟨c, cs, heq, hc⟩
  rw [heq, List.head?_cons, ne_eq, Option.some.injEq] at hb hr
  have hquote : c ∉ ['\x22', '\x27', 'b', 'r'] := by
    have hmarks : startsName '\x22' = false ∧ startsName '\x27' = false := by decide
    simp only [List.mem_cons, List.not_mem_nil, or_false, not_or]
    refine ⟨?_, ?_, hb, hr⟩
    · rintro rfl
      exact absurd hc (Bool.eq_false_iff.1 hmarks.1)
    · rintro rfl
      exact absurd hc (Bool.eq_false_iff.1 hmarks.2)
  rw [leaf?, hwords, heq, List.cons_append, quotation?_eq_none hquote, number?_eq_none hc]
  rfl

theorem value?_name (e : Extensions) (n : Nat) {s : String} (hs : isBareName s = true)
    {rest : List Char} (hrest : EndsValue rest) :
    value? e n (s.toList ++ rest) = some (.name s, rest) := by
  have hplain := isPlain_name hs hrest.1
  have hname : name? (s.toList ++ rest) = some (s, rest) := by
    rw [name?_append (isWord_of_isBareName hs) hrest.1, String.ofList_toList]
  have hleaf := leaf?_eq_none hs hrest.1
  rcases n with _ | n
  · rw [value?, hplain.atom?, hleaf, hname]
    rfl
  · -- No parenthesis follows, so the name is not the type of a record or a tuple.
    have hopen : char? '(' rest = none := by
      rcases rest with _ | ⟨c, rest⟩
      · rfl
      · exact if_neg fun heq => hrest.2 (congrArg some heq)
    rcases value?_succ e n with ⟨item?, bareItem?, heq⟩
    rw [heq, hplain.valueOf?, hleaf, Option.none_or, named?, hname]
    simp only [Option.bind_eq_bind, Option.bind_some, hrest.1.skip?_eq, hopen]
    rfl

/-! ### Optional values -/

theorem value?_present {n m : Nat} {v : Ron} (hv : Written m v) {layout : Layout} {depth : Nat}
    (hread : ∀ cs, EndsValue cs →
      value? {} n (render layout depth v ++ cs) = some (v, cs)) (rest : List Char) :
    value? {} (n + 1) (render layout depth (.present v) ++ rest) = some (.present v, rest) := by
  have hopen : EndsToken ('(' :: (render layout depth v ++ ')' :: rest)) :=
    endsToken_cons (by decide) _
  have hmarker : word? "Some" ("Some".toList ++ '(' :: (render layout depth v ++ ')' :: rest)) =
      some ('(' :: (render layout depth v ++ ')' :: rest)) :=
    (word?_append (by decide) (by decide) hopen).trans (if_pos rfl)
  have hclosed : closed? (value? {} n) (render layout depth v ++ ')' :: rest) = some (v, rest) := by
    have hends : EndsValue (')' :: rest) := endsValue_cons (by decide) rest
    simp [closed?, hread _ hends, hends.1.skip?_eq, char?]
  rcases value?_succ {} n with ⟨item?, bareItem?, heq⟩
  rw [heq, render_present, valueOf?, hmarker]
  · simp [optional?, hopen.skip?_eq, char?, skip?_render hv, hclosed]
  all_goals exact fun _ heq => absurd (List.cons.inj heq).1 (by decide)

/-! ### Items between commas -/

section Items

variable {α : Type} {text : α → List Char} {gap : List Char} {x : α} {xs : List α}

/-- The text behind the last item: what closes the items, perhaps behind another comma. -/
def Closes (close : Char) (rest cs : List Char) : Prop :=
  cs = close :: rest ∨ ∃ gap, IsBlank gap ∧ cs = ',' :: (gap ++ close :: rest)

/-- The characters that close items. -/
def closers : List Char :=
  [')', ']', '\x7d']

variable {close : Char} {rest : List Char} {item? : Reader α}

theorem Closes.endsValue (hclose : close ∈ closers) {cs : List Char} (h : Closes close rest cs) :
    EndsValue cs := by
  have hmark : closers ⊆ marks.tail := by decide
  rcases h with rfl | ⟨gap, _, rfl⟩
  · exact endsValue_cons (hmark hclose) rest
  · exact endsValue_cons (by decide) _

theorem skip?_close (hclose : close ∈ closers) (cs : List Char) :
    skip? (close :: cs) = some (close :: cs) := by
  have hgap : ∀ c ∈ closers, startsGap c = false := forall_mem_eq_false (by decide)
  exact skip?_cons (hgap close hclose) cs

/-- An item is read, and then what stands behind it. -/
theorem itemsFrom?_item (hclose : close ∈ closers) {front : List Char} (hfront : IsBlank front)
    (hstart : ∃ c cs, text x = c :: cs ∧ startsValue c = true) {cs : List Char}
    (hcs : EndsValue cs) (hread : item? (text x ++ cs) = some (x, cs)) (steps : Nat) :
    itemsFrom? close item? (steps + 1) (front ++ (text x ++ cs)) =
      match char? ',' cs with
      | some rest => (itemsFrom? close item? steps rest).map fun (xs, rest) => (x :: xs, rest)
      | none => (char? close cs).map fun rest => ([x], rest) := by
  have hcloses : ∀ c ∈ closers, startsValue c = false := forall_mem_eq_false (by decide)
  rcases hstart with ⟨c, cs', heq, hc⟩
  have hne : c ≠ close := by
    rintro rfl
    exact absurd hc (Bool.eq_false_iff.1 (hcloses c hclose))
  have hother : char? close (text x ++ cs) = none := by
    rw [heq]
    exact if_neg hne
  have hskip : skip? (text x ++ cs) = some (text x ++ cs) := by
    rw [heq, List.cons_append, skip?_of_startsValue hc]
  rcases hcomma : char? ',' cs with _ | rest <;>
    simp only [itemsFrom?, skip?_append hfront, hskip, Option.bind_eq_bind, Option.bind_some,
      hother, hread, hcs.1.skip?_eq, hcomma]

/-- Items are read one after the other, up to the closing character. -/
theorem itemsFrom?_joined (hclose : close ∈ closers) (hgap : IsBlank gap)
    (hstart : ∀ y ∈ x :: xs, ∃ c cs, text y = c :: cs ∧ startsValue c = true)
    (hread : ∀ y ∈ x :: xs, ∀ cs, EndsValue cs → item? (text y ++ cs) = some (y, cs))
    {front back : List Char} (hfront : IsBlank front) (hback : Closes close rest back)
    {steps : Nat} (hsteps : xs.length + 1 < steps) :
    itemsFrom? close item? steps (front ++ (joined text gap x xs ++ back)) =
      some (x :: xs, rest) := by
  obtain ⟨steps, rfl⟩ := Nat.exists_eq_succ_of_ne_zero (Nat.ne_zero_of_lt hsteps)
  have hstartx := hstart x List.mem_cons_self
  induction xs generalizing x front steps with
  | nil =>
      have hends := hback.endsValue hclose
      have hitem := hread x List.mem_cons_self back hends
      rw [joined, List.flatMap_nil, List.append_nil,
        itemsFrom?_item hclose hfront hstartx hends hitem]
      rcases hback with rfl | ⟨gap, hblank, rfl⟩
      · have hcomma : close ≠ ',' := ne_of_mem_of_not_mem hclose (by decide)
        simp [char?, hcomma]
      · -- Behind the last comma there is nothing but white space.
        obtain ⟨steps, rfl⟩ : ∃ k, steps = k + 1 := ⟨steps - 1, by omega⟩
        simp [char?, itemsFrom?, skip?_append hblank, skip?_close hclose]
  | cons y ys ih =>
      obtain ⟨steps, rfl⟩ : ∃ k, steps = k + 1 := ⟨steps - 1, by omega⟩
      have hends : EndsValue (',' :: (gap ++ (joined text gap y ys ++ back))) :=
        endsValue_cons (by decide) _
      have hitem := hread x List.mem_cons_self _ hends
      have htail := ih (fun z hz => hstart z (List.mem_cons_of_mem x hz))
        (fun z hz => hread z (List.mem_cons_of_mem x hz)) hgap steps
        (by rw [List.length_cons] at hsteps; omega)
        (hstart y (List.mem_cons_of_mem x List.mem_cons_self))
      rw [joined_cons, itemsFrom?_item hclose hfront hstartx hends hitem]
      simp [char?, htail]

/-- The length of the text is steps enough. -/
theorem items?_joined (hclose : close ∈ closers) (hgap : IsBlank gap)
    (hstart : ∀ y ∈ x :: xs, ∃ c cs, text y = c :: cs ∧ startsValue c = true)
    (hread : ∀ y ∈ x :: xs, ∀ cs, EndsValue cs → item? (text y ++ cs) = some (y, cs))
    {front back : List Char} (hfront : IsBlank front) (hback : Closes close rest back) :
    items? close item? (front ++ (joined text gap x xs ++ back)) = some (x :: xs, rest) := by
  refine itemsFrom?_joined hclose hgap hstart hread hfront hback ?_
  have hle : xs.length ≤ (joined text gap x xs).length := length_le_joined
  have hpos : 0 < back.length := by
    rcases hback with rfl | ⟨gap, _, rfl⟩ <;> exact Nat.succ_pos _
  simp only [List.length_append]
  omega

end Items

/-! ### Lists, maps, tuples and records -/

theorem closes_closing (layout : Layout) (depth : Nat) (close : Char) (rest : List Char) :
    Closes close rest (closing layout depth ++ close :: rest) := by
  cases layout with
  | compact => exact Or.inl rfl
  | lines => exact Or.inr ⟨_, isBlank_indent .lines depth, rfl⟩

/-- The value is read from its text at a depth. -/
def Reads (n : Nat) (layout : Layout) (depth : Nat) (v : Ron) : Prop :=
  ∀ cs, EndsValue cs → value? {} n (render layout depth v ++ cs) = some (v, cs)

section Values

variable {n m : Nat} {layout : Layout} {depth : Nat}

/-- A key is read up to the colon, and the value behind it. -/
theorem pair?_entryChars {α : Type} {key : α → List Char} {key? : Reader α} {e : α × Ron}
    (hkey : ∀ cs, EndsValue cs → key? (key e.1 ++ cs) = some (e.1, cs)) (he : Written n e.2)
    (hread : Reads m layout depth e.2) {cs : List Char} (hcs : EndsValue cs) :
    pair? key? (value? {} m) (entryChars key layout depth e ++ cs) = some (e, cs) := by
  rcases colon_eq layout with ⟨gap, hcolon, hgap⟩
  have hends : EndsValue (':' :: (gap ++ (render layout depth e.2 ++ cs))) :=
    endsValue_cons (by decide) _
  have hvalue : spaced? (value? {} m) (gap ++ (render layout depth e.2 ++ cs)) =
      some (e.2, cs) := by
    rw [spaced?, skip?_append hgap, skip?_render he, Option.bind_some, hread cs hcs]
  have htext : entryChars key layout depth e ++ cs =
      key e.1 ++ ':' :: (gap ++ (render layout depth e.2 ++ cs)) := by
    simp [entryChars, hcolon]
  simp [pair?, htext, hkey _ hends, hends.1.skip?_eq, char?, hvalue]

theorem value?_list {vs : List Ron} (hvs : ∀ v ∈ vs, Written m v)
    (hread : ∀ v ∈ vs, Reads n layout (depth + 1) v) (rest : List Char) :
    value? {} (n + 2) (render layout depth (.list vs) ++ rest) = some (.list vs, rest) := by
  rcases value?_add_two {} n with ⟨content?, bareItem?, heq⟩
  rw [heq]
  rcases vs with _ | ⟨v, vs⟩
  · rfl
  · have hitems := items?_joined (by decide) (isBlank_indent layout (depth + 1))
      (fun y hy => exists_render_eq (hvs y hy) layout (depth + 1)) hread
      (isBlank_indent layout (depth + 1)) (closes_closing layout depth ']' rest)
    rw [render_list, valueOf?, hitems]
    rfl

theorem value?_map {es : List (Ron × Ron)} (hkeys : ∀ e ∈ es, Written m e.1)
    (hvalues : ∀ e ∈ es, Written m e.2)
    (hread : ∀ e ∈ es, Reads n layout (depth + 1) e.1 ∧ Reads n layout (depth + 1) e.2)
    (rest : List Char) :
    value? {} (n + 2) (render layout depth (.map es) ++ rest) = some (.map es, rest) := by
  rcases value?_add_two {} n with ⟨content?, bareItem?, heq⟩
  rw [heq]
  rcases es with _ | ⟨e, es⟩
  · rfl
  · have hstart : ∀ y ∈ e :: es, ∃ c cs,
        entryChars (render layout (depth + 1)) layout (depth + 1) y = c :: cs ∧
          startsValue c = true := by
      intro y hy
      rcases exists_render_eq (hkeys y hy) layout (depth + 1) with ⟨c, cs, heq, hc⟩
      exact ⟨c, _, by rw [entryChars, heq, List.cons_append], hc⟩
    have hentry : ∀ y ∈ e :: es, ∀ cs, EndsValue cs →
        pair? (value? {} n) (value? {} n)
          (entryChars (render layout (depth + 1)) layout (depth + 1) y ++ cs) = some (y, cs) :=
      fun y hy cs hcs => pair?_entryChars (hread y hy).1 (hvalues y hy) (hread y hy).2 hcs
    have hitems := items?_joined (by decide) (isBlank_indent layout (depth + 1))
      hstart hentry (isBlank_indent layout (depth + 1)) (closes_closing layout depth '\x7d' rest)
    rw [render_map, valueOf?, hitems]
    rfl

theorem value?_tuple {vs : List Ron} (hne : vs ≠ []) (hvs : ∀ v ∈ vs, Written m v)
    (hread : ∀ v ∈ vs, Reads n layout depth v) (rest : List Char) :
    value? {} (n + 2) (render layout depth (.tuple none vs) ++ rest) =
      some (.tuple none vs, rest) := by
  rcases value?_add_two {} n with ⟨content?, bareItem?, heq⟩
  rcases tupleSeparator_eq layout with ⟨gap, hseparator, hgap⟩
  rcases vs with _ | ⟨v, vs⟩
  · exact absurd rfl hne
  · have hback : Closes ')' rest (')' :: rest) := Or.inl rfl
    have hitems := items?_joined (by decide) hgap
      (fun y hy => exists_render_eq (hvs y hy) layout depth) hread isBlank_nil hback
    have hv := hvs v List.mem_cons_self
    -- The first item is no member, whether it is the last one or not.
    have hmember : isMember (joined (render layout depth) gap v vs ++ ')' :: rest) = false := by
      rcases vs with _ | ⟨y, ys⟩
      · rw [joined, List.flatMap_nil, List.append_nil]
        exact isMember_render hv layout depth (endsToken_cons (by decide) _) rfl
      · rw [joined_cons]
        exact isMember_render hv layout depth (endsToken_cons (by decide) _) rfl
    have hskip : skip? (joined (render layout depth) gap v vs ++ ')' :: rest) =
        some (joined (render layout depth) gap v vs ++ ')' :: rest) := by
      rw [joined, List.append_assoc, skip?_render hv]
    rw [List.nil_append] at hitems
    rw [heq, render_tuple layout depth rest hseparator, valueOf?, parenthesised?, hskip]
    simp only [Option.bind_eq_bind, Option.bind_some, hmember, Bool.false_eq_true, ↓reduceIte,
      hitems, Option.map_some]

/-- The members of a record are read behind its parenthesis. -/
theorem parenthesised?_members {ms : List (String × Ron)} {e : String × Ron}
    (hnames : ∀ m ∈ e :: ms, isWord m.1.toList = true) (hvalues : ∀ e' ∈ e :: ms, Written m e'.2)
    (hread : ∀ e' ∈ e :: ms, Reads n layout depth e'.2) (typeName : Option String)
    {front gap back rest : List Char} (hfront : IsBlank front) (hgap : IsBlank gap)
    (hback : Closes ')' rest back) :
    parenthesised? typeName (value? {} n)
      (front ++ (joined (entryChars String.toList layout depth) gap e ms ++ back)) =
        some (.record typeName (e :: ms), rest) := by
  have hstart : ∀ y ∈ e :: ms, ∃ c cs,
      entryChars String.toList layout depth y = c :: cs ∧ startsValue c = true := by
    intro y hy
    rcases exists_word_eq (hnames y hy) with ⟨c, cs, heq, hc⟩
    exact ⟨c, _, by rw [entryChars, heq, List.cons_append], startsValue_of_startsName hc⟩
  have hmember : ∀ y ∈ e :: ms, ∀ cs, EndsValue cs →
      pair? name? (value? {} n) (entryChars String.toList layout depth y ++ cs) =
        some (y, cs) := by
    intro y hy cs hcs
    refine pair?_entryChars (fun cs' hcs' => ?_) (hvalues y hy) (hread y hy) hcs
    rw [name?_append (hnames y hy) hcs'.1, String.ofList_toList]
  have hitems := items?_joined (by decide) hgap hstart hmember isBlank_nil hback
  have hskip : skip? (joined (entryChars String.toList layout depth) gap e ms ++ back) =
      some (joined (entryChars String.toList layout depth) gap e ms ++ back) := by
    rcases hstart e List.mem_cons_self with ⟨c, cs, heq, hc⟩
    rw [joined, heq, List.append_assoc, List.cons_append, skip?_of_startsValue hc]
  have hcolon : isMember (joined (entryChars String.toList layout depth) gap e ms ++ back) =
      true := by
    rcases colon_eq layout with ⟨gap', heq, _⟩
    rw [joined, entryChars, heq]
    simp only [List.append_assoc, List.cons_append]
    rw [isMember_word (hnames e List.mem_cons_self) (endsToken_cons (by decide) _)]
    rfl
  rw [List.nil_append] at hitems
  rw [parenthesised?, skip?_append hfront, hskip]
  simp only [Option.bind_eq_bind, Option.bind_some, hcolon, ↓reduceIte, hitems, Option.map_some]

theorem value?_record {typeName : Option String} {ms : List (String × Ron)} (hne : ms ≠ [])
    (htype : ∀ t ∈ typeName, isBareName t = true) (hnames : ∀ m ∈ ms, isWord m.1.toList = true)
    (hvalues : ∀ e ∈ ms, Written m e.2) (hread : ∀ e ∈ ms, Reads n layout (depth + 1) e.2)
    (rest : List Char) :
    value? {} (n + 2) (render layout depth (.record typeName ms) ++ rest) =
      some (.record typeName ms, rest) := by
  rcases value?_add_two {} n with ⟨content?, bareItem?, heq⟩
  rcases ms with _ | ⟨e, ms⟩
  · exact absurd rfl hne
  · have hmembers := parenthesised?_members hnames hvalues hread typeName
      (isBlank_indent layout (depth + 1)) (isBlank_indent layout (depth + 1))
      (closes_closing layout depth ')' rest)
    rw [heq, render_record]
    rcases typeName with _ | t
    · rw [typeNameChars, List.nil_append, valueOf?, hmembers]
    · have ht := htype t rfl
      have hopen (cs : List Char) : EndsToken ('(' :: cs) := endsToken_cons (by decide) cs
      rw [typeNameChars, (isPlain_name ht (hopen _)).valueOf?, leaf?_eq_none ht (hopen _),
        Option.none_or, named?, name?_append (isWord_of_isBareName ht) (hopen _)]
      simp [(hopen _).skip?_eq, char?, hmembers]

end Values

/-- A written value is read back, whatever mark follows it, if the budget is enough. -/
theorem value?_render {n m : Nat} {v : Ron} (hv : Written m v) (hm : m ≤ n) (layout : Layout)
    (depth : Nat) : Reads n layout depth v := by
  induction hv generalizing n depth with
  | name hs =>
      intro cs hcs
      exact value?_name {} n hs hcs
  | number htoken =>
      intro cs hcs
      exact value?_number {} n htoken hcs.1
  | text s =>
      intro cs _
      exact value?_text {} n s cs
  | missing =>
      intro cs hcs
      exact value?_missing {} n hcs.1
  -- What has parts leaves them a budget that is still enough.
  | present hv ih =>
      intro cs _
      obtain ⟨n, rfl⟩ : ∃ k, n = k + 1 := ⟨n - 1, by omega⟩
      exact value?_present hv (ih (by omega) depth) cs
  | list hvs ih =>
      intro cs _
      obtain ⟨n, rfl⟩ : ∃ k, n = k + 2 := ⟨n - 2, by omega⟩
      exact value?_list hvs (fun v hv => ih v hv (by omega) (depth + 1)) cs
  | map hkeys hvalues ihkeys ihvalues =>
      intro cs _
      obtain ⟨n, rfl⟩ : ∃ k, n = k + 2 := ⟨n - 2, by omega⟩
      exact value?_map hkeys hvalues (fun e he =>
        ⟨ihkeys e he (by omega) (depth + 1), ihvalues e he (by omega) (depth + 1)⟩) cs
  | tuple hne hvs ih =>
      intro cs _
      obtain ⟨n, rfl⟩ : ∃ k, n = k + 2 := ⟨n - 2, by omega⟩
      exact value?_tuple hne hvs (fun v hv => ih v hv (by omega) depth) cs
  | record hne htype hnames hvalues ih =>
      intro cs _
      obtain ⟨n, rfl⟩ : ∃ k, n = k + 2 := ⟨n - 2, by omega⟩
      exact value?_record hne htype hnames hvalues
        (fun e he => ih e he (by omega) (depth + 1)) cs

/-- No value asks for extensions. -/
theorem extensions?_render {n : Nat} {v : Ron} (hv : Written n v) (layout : Layout) (steps : Nat) :
    extensions? (steps + 1) {} (render layout 0 v) = some ({}, render layout 0 v) := by
  have hskip := skip?_render hv layout 0 []
  rw [List.append_nil] at hskip
  have hhash : char? '#' (render layout 0 v) = none := by
    rcases exists_render_eq hv layout 0 with ⟨c, cs, heq, hc⟩
    have hne : c ≠ '#' := by
      rintro rfl
      exact absurd hc (by decide)
    rw [heq]
    exact if_neg hne
  rw [extensions?, hskip]
  simp only [Option.bind_eq_bind, Option.bind_some, hhash]
  rfl

/-- A value is read back from its text. -/
theorem parse?_render {n : Nat} {v : Ron} (hv : Written n v) (hn : n ≤ nestingBudget)
    (layout : Layout) : parse? (String.ofList (render layout 0 v)) = some ({}, v) := by
  have hread := value?_render hv hn layout 0 [] endsValue_nil
  rw [List.append_nil] at hread
  rw [parse?, String.toList_ofList]
  simp only [extensions?_render hv, Option.bind_eq_bind, Option.bind_some, hread]
  rfl

end BehaviorGraph.Ron
