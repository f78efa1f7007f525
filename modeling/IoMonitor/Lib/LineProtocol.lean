import IoMonitor.Lib.Columns

/-!
The line protocol of a time-series database: texts of points, one on each line.

`Point` carries the well-formedness of its parts, so `Point.text` ranges over the
lines of the grammar, and a line is read as at most one point
(`Point.text_injective`).

The second half is about texts that are put together without regard to the
grammar. A quoted literal in such a text can only be read as what it is
(`quoted_synchronizes`), whatever precedes it.
-/

namespace LineProtocol

open Columns

/-! ### Reading with escapes -/

/-- Where a piece of a line ends, and after which characters the next one does not
end it. -/
structure Reader where
  stop : Char → Bool
  escapes : Bool → Char → Bool

namespace Reader

variable (R : Reader)

/-- Read on to the end: `none` at a stop, else whether the next character is
escaped. -/
def run : Bool → List Char → Option Bool
  | escaped, [] => some escaped
  | escaped, c :: s => if R.stop c ∧ escaped = false then none else run (R.escapes escaped c) s

/-- The whole piece is read and a stop after it would end it. -/
def Reads (s : List Char) : Prop := R.run false s = some false

instance (s : List Char) : Decidable (R.Reads s) := by unfold Reads; infer_instance

theorem run_append (escaped : Bool) (s t : List Char) :
    R.run escaped (s ++ t) = (R.run escaped s).bind fun escaped => R.run escaped t := by
  induction s generalizing escaped with
  | nil => rfl
  | cons c s ih =>
      rw [List.cons_append, run, run]
      split
      · rfl
      · exact ih _

theorem run_stop {c : Char} (stop : R.stop c) (s : List Char) : R.run false (c :: s) = none := by
  rw [run, if_pos ⟨stop, rfl⟩]

/-- A piece that is read is no longer than another up to a stop. -/
theorem not_reads_append {s t : List Char} {c : Char} (reads : R.Reads s) (stop : R.stop c) :
    R.run false (s ++ c :: t) = none := by
  rw [run_append, reads, Option.bind_some, run_stop R stop]

end Reader

/-- Two ways to divide a text at `c` and `d`. -/
theorem divide {s t x y : List Char} {c d : Char} (same : s ++ c :: x = t ++ d :: y) :
    (s = t ∧ c = d ∧ x = y) ∨ (∃ m, s = t ++ d :: m ∧ y = m ++ c :: x) ∨
      ∃ m, t = s ++ c :: m ∧ x = m ++ d :: y := by
  rcases List.append_eq_append_iff.mp same with ⟨m, rfl, rest⟩ | ⟨m, rfl, rest⟩
  · cases m with
    | nil =>
        obtain ⟨rfl, rfl⟩ := List.cons.inj rest
        exact .inl ⟨(List.append_nil s).symm, rfl, rfl⟩
    | cons e m =>
        obtain ⟨rfl, rfl⟩ := List.cons.inj rest
        exact .inr (.inr ⟨m, rfl, rfl⟩)
  · cases m with
    | nil =>
        obtain ⟨rfl, rfl⟩ := List.cons.inj rest
        exact .inl ⟨List.append_nil t, rfl, rfl⟩
    | cons e m =>
        obtain ⟨rfl, rfl⟩ := List.cons.inj rest
        exact .inr (.inl ⟨m, rfl, rfl⟩)

/-- A piece ends at the first stop. -/
theorem Reader.reads_unique (R : Reader) {s t x y : List Char} {c d : Char} (hs : R.Reads s)
    (ht : R.Reads t) (stopC : R.stop c) (stopD : R.stop d) (same : s ++ c :: x = t ++ d :: y) :
    s = t ∧ c = d ∧ x = y := by
  rcases divide same with done | ⟨m, rfl, -⟩ | ⟨m, rfl, -⟩
  · exact done
  · rw [Reader.Reads, R.not_reads_append ht stopD] at hs
    cases hs
  · rw [Reader.Reads, R.not_reads_append hs stopC] at ht
    cases ht

/-! ### Points -/

/-- Keys, tag values and measurements: a stop after a backslash is part of them. -/
def tokenReader (stops : List Char) : Reader where
  stop c := c ∈ stops
  escapes _ c := c = '\\'

/-- Strings: a backslash escapes a quote or another backslash. -/
def stringReader : Reader where
  stop c := c = '"'
  escapes escaped c := c = '\\' && !escaped

structure Token (stops : List Char) where
  text : List Char
  nonempty : text ≠ []
  reads : (tokenReader stops).Reads text

def keyStops : List Char := [',', '=', ' ']

structure Quoted where
  text : List Char
  reads : stringReader.Reads text

/-- The characters that no number contains. -/
def separators : List Char := [',', '=', ' ', '"', '\\', '\n']

structure Bare where
  text : List Char
  nonempty : text ≠ []
  plain : ∀ c ∈ text, c ∉ separators

inductive FieldValue where
  | string (s : Quoted)
  | bare (b : Bare)

def FieldValue.text : FieldValue → List Char
  | string s => '"' :: s.text ++ ['"']
  | bare b => b.text

structure Point where
  measurement : Token [',', ' ']
  tags : List (Token keyStops × Token keyStops)
  fields : List (Token keyStops × FieldValue)
  nonempty : fields ≠ []

def fieldText (field : Token keyStops × FieldValue) : List Char :=
  field.1.text ++ '=' :: field.2.text

def tagText (tag : Token keyStops × Token keyStops) : List Char :=
  tag.1.text ++ '=' :: tag.2.text

def Point.text (p : Point) : List Char :=
  join ',' (p.measurement.text :: p.tags.map tagText) ++ ' ' :: join ',' (p.fields.map fieldText)

/-- The text is the points, each on a line of its own. -/
def Parses (text : List Char) (points : List Point) : Prop :=
  text = join '\n' (points.map Point.text) ∧ ∀ p ∈ points, '\n' ∉ p.text

/-! ### A line is one point -/

@[ext] theorem Token.ext {stops : List Char} {a b : Token stops} (h : a.text = b.text) :
    a = b := by
  cases a
  cases b
  cases h
  rfl

@[ext] theorem Quoted.ext {a b : Quoted} (h : a.text = b.text) : a = b := by
  cases a
  cases b
  cases h
  rfl

@[ext] theorem Bare.ext {a b : Bare} (h : a.text = b.text) : a = b := by
  cases a
  cases b
  cases h
  rfl

/-- Before another stop than the one looked for, a token goes on. -/
theorem Token.unique {stops : List Char} {a b : Token stops} {c d : Char} {x y : List Char}
    (stopC : c ∈ stops) (stopD : d ∈ stops) (same : a.text ++ c :: x = b.text ++ d :: y) :
    a = b ∧ c = d ∧ x = y := by
  obtain ⟨text, rest⟩ :=
    (tokenReader stops).reads_unique a.reads b.reads (decide_eq_true stopC)
      (decide_eq_true stopD) same
  exact ⟨Token.ext text, rest⟩

/-- The tags, each after a comma, and then the rest of the line. -/
def tagsText (rest : List Char) : List (Token keyStops × Token keyStops) → List Char
  | [] => rest
  | (key, value) :: tags => ',' :: (key.text ++ '=' :: (value.text ++ tagsText rest tags))

theorem tagsText_eq (first rest : List Char) (tags : List (Token keyStops × Token keyStops)) :
    join ',' (first :: tags.map tagText) ++ rest = first ++ tagsText rest tags := by
  induction tags generalizing first with
  | nil => rw [List.map_nil, join_singleton, tagsText]
  | cons tag tags ih =>
      rw [List.map_cons, join_cons_cons, List.append_assoc, List.cons_append, ih, tagsText, tagText,
        List.append_assoc, List.cons_append]

/-- What follows a token in the tags: a comma, or the space before the fields. -/
theorem tagsText_head (rest : List Char) (tags : List (Token keyStops × Token keyStops)) :
    ∃ c x, tagsText (' ' :: rest) tags = c :: x ∧ c ∈ [',', ' '] := by
  cases tags with
  | nil => exact ⟨' ', rest, rfl, by simp⟩
  | cons tag tags => exact ⟨',', _, rfl, by simp⟩

theorem tagsText_injective {rest rest' : List Char}
    {tags tags' : List (Token keyStops × Token keyStops)}
    (same : tagsText (' ' :: rest) tags = tagsText (' ' :: rest') tags') :
    tags = tags' ∧ rest = rest' := by
  induction tags generalizing tags' with
  | nil =>
      cases tags' with
      | nil => exact ⟨rfl, (List.cons.inj same).2⟩
      | cons tag tags' => exact absurd (List.cons.inj same).1 (by decide)
  | cons tag tags ih =>
      cases tags' with
      | nil => exact absurd (List.cons.inj same).1 (by decide)
      | cons tag' tags' =>
          obtain ⟨key, value⟩ := tag
          obtain ⟨key', value'⟩ := tag'
          have keys : key.text ++ '=' :: (value.text ++ tagsText (' ' :: rest) tags) =
              key'.text ++ '=' :: (value'.text ++ tagsText (' ' :: rest') tags') :=
            (List.cons.inj same).2
          obtain ⟨rfl, -, values⟩ := Token.unique (by decide) (by decide) keys
          obtain ⟨c, x, head, stop⟩ := tagsText_head rest tags
          obtain ⟨c', x', head', stop'⟩ := tagsText_head rest' tags'
          have inKey : [',', ' '] ⊆ keyStops := by decide
          rw [head, head'] at values
          obtain ⟨rfl, rfl, rfl⟩ := Token.unique (inKey stop) (inKey stop') values
          obtain ⟨rfl, done⟩ := ih (head.trans head'.symm)
          exact ⟨rfl, done⟩

theorem FieldValue.unique {a b : FieldValue} {x y : List Char}
    (same : a.text ++ ',' :: x = b.text ++ ',' :: y) : a = b ∧ x = y := by
  -- A number does not start with a quote.
  have apart : ∀ (b : Bare) {s z w : List Char}, '"' :: s ++ z ≠ b.text ++ w := by
    intro b s z w eq
    obtain ⟨c, text, head⟩ := List.exists_cons_of_ne_nil b.nonempty
    rw [head] at eq
    exact b.plain c (head ▸ List.mem_cons_self) ((List.cons.inj eq).1 ▸ by decide)
  cases a with
  | string s =>
      cases b with
      | string t =>
          have inside : s.text ++ '"' :: ',' :: x = t.text ++ '"' :: ',' :: y := by
            simpa [text] using same
          obtain ⟨content, -, rest⟩ := stringReader.reads_unique s.reads t.reads (by decide)
            (by decide) inside
          exact ⟨congrArg string (Quoted.ext content), (List.cons.inj rest).2⟩
      | bare t => exact absurd same (apart t)
  | bare s =>
      cases b with
      | string t => exact absurd same.symm (apart s)
      | bare t =>
          have inside : s.text ++ ',' :: x = t.text ++ ',' :: y := same
          rcases divide inside with ⟨whole, -, rest⟩ | ⟨m, eq, -⟩ | ⟨m, eq, -⟩
          · exact ⟨congrArg bare (Bare.ext whole), rest⟩
          · exact absurd (by decide) (s.plain ',' (eq ▸ by simp))
          · exact absurd (by decide) (t.plain ',' (eq ▸ by simp))

/-- Only a string has its value in quotes. -/
theorem FieldValue.reads_of_quoted {value : FieldValue} {s : List Char}
    (quoted : value.text = '"' :: (s ++ ['"'])) : stringReader.Reads s := by
  cases value with
  | string t =>
      have same : t.text = s := List.append_cancel_right (List.cons.inj quoted).2
      exact same ▸ t.reads
  | bare b =>
      have inside : b.text = '"' :: (s ++ ['"']) := quoted
      exact absurd (by decide) (b.plain '"' (inside ▸ List.mem_cons_self))

/-- A comma after each field. -/
theorem fields_unique {fields fields' : List (Token keyStops × FieldValue)}
    (same : (fields.map fieldText).flatMap (· ++ [',']) =
      (fields'.map fieldText).flatMap (· ++ [','])) : fields = fields' := by
  induction fields generalizing fields' with
  | nil =>
      cases fields' with
      | nil => rfl
      | cons field fields' => simp [fieldText] at same
  | cons field fields ih =>
      cases fields' with
      | nil => simp [fieldText] at same
      | cons field' fields' =>
          obtain ⟨key, value⟩ := field
          obtain ⟨key', value'⟩ := field'
          simp only [List.map_cons, List.flatMap_cons, fieldText, List.append_assoc,
            List.cons_append, List.nil_append] at same
          obtain ⟨rfl, -, values⟩ := Token.unique (by decide) (by decide) same
          obtain ⟨rfl, rest⟩ := FieldValue.unique values
          rw [ih rest]

theorem Point.text_injective {p q : Point} (same : p.text = q.text) : p = q := by
  obtain ⟨measurement, tags, fields, nonempty⟩ := p
  obtain ⟨measurement', tags', fields', nonempty'⟩ := q
  obtain ⟨c, x, head, stop⟩ := tagsText_head (join ',' (fields.map fieldText)) tags
  obtain ⟨c', x', head', stop'⟩ := tagsText_head (join ',' (fields'.map fieldText)) tags'
  rw [text, text, tagsText_eq, tagsText_eq, head, head'] at same
  obtain ⟨rfl, rfl, rfl⟩ := Token.unique stop stop' same
  obtain ⟨rfl, rest⟩ := tagsText_injective (head.trans head'.symm)
  have some_ : fields.map fieldText ≠ [] := by simpa using nonempty
  have some' : fields'.map fieldText ≠ [] := by simpa using nonempty'
  have commas := congrArg (· ++ [',']) rest
  simp only [join_append_sep ',' some_, join_append_sep ',' some'] at commas
  obtain rfl := fields_unique commas
  rfl

/-- A text is read in one way. -/
theorem parses_unique {text : List Char} {points points' : List Point} (some_ : points ≠ [])
    (some' : points' ≠ []) (h : Parses text points) (h' : Parses text points') :
    points = points' := by
  have lines : ∀ {points : List Point}, points ≠ [] → Parses text points →
      text.splitOn '\n' = points.map Point.text := by
    rintro points nonempty ⟨rfl, oneLine⟩
    rw [splitOn_join '\n' (by simpa using nonempty)]
    exact columns_of_notMem (List.forall_mem_map.mpr oneLine)
  have same := (lines some_ h).symm.trans (lines some' h')
  exact List.map_injective_iff.mpr (fun p q => Point.text_injective) same

/-! ### Texts with quotes in them -/

/-- What follows a closing quote up to the next opening one. -/
structure Between (l : List Char) : Prop where
  comma : l.head? = some ','
  noQuote : '"' ∉ l

/-- A text from behind an opening quote: what is in the quotes, what follows up to
the next quote, what is in these, and so on to the end of the line. -/
def quotedText (tail : List Char) : List Char → List (List Char × List Char) → List Char
  | w, [] => w ++ '"' :: tail
  | w, (l, w') :: more => w ++ '"' :: (l ++ '"' :: quotedText tail w' more)

theorem reads_of_plain {l : List Char} (noQuote : '"' ∉ l) (noBackslash : '\\' ∉ l) :
    stringReader.Reads l := by
  unfold Reader.Reads
  induction l with
  | nil => rfl
  | cons c l ih =>
      obtain ⟨quote, noQuote⟩ := not_or.mp (List.mem_cons.not.mp noQuote)
      obtain ⟨backslash, noBackslash⟩ := not_or.mp (List.mem_cons.not.mp noBackslash)
      rw [Reader.run, if_neg (by simpa [stringReader] using Ne.symm quote)]
      simpa [stringReader, Ne.symm backslash] using ih noQuote noBackslash

theorem reads_token_of_plain {stops l : List Char} (plain : ∀ c ∈ l, c ∉ stops ∧ c ≠ '\\') :
    (tokenReader stops).Reads l := by
  unfold Reader.Reads
  induction l with
  | nil => rfl
  | cons c l ih =>
      obtain ⟨⟨stop, backslash⟩, others⟩ := List.forall_mem_cons.mp plain
      rw [Reader.run, if_neg (by simpa [tokenReader] using stop)]
      simpa [tokenReader, backslash] using ih others

/-- A stop inside a piece is escaped, and behind it the piece is read from its start. -/
theorem Reader.reads_of_stop {R : Reader} {u m : List Char} {c : Char} (stop : R.stop c)
    (ends : R.escapes true c = false) (reads : R.Reads (u ++ c :: m)) :
    R.run false u = some true ∧ R.Reads m := by
  rw [Reads, run_append] at reads
  cases state : R.run false u with
  | none =>
      rw [state] at reads
      cases reads
  | some escaped =>
      rw [state, Option.bind_some] at reads
      cases escaped with
      | false =>
          rw [run_stop R stop] at reads
          cases reads
      | true =>
          rw [run, if_neg (by simp), ends] at reads
          exact ⟨rfl, reads⟩

theorem reads_of_escaped {u m : List Char} (reads : stringReader.Reads (u ++ '"' :: m)) :
    stringReader.run false u = some true ∧ stringReader.Reads m :=
  Reader.reads_of_stop (by rfl) (by rfl) reads

/-- A string with an equals sign before a quote is not read whole. -/
theorem not_reads_of_equals {y u : List Char} (equals : some '=' = ('"' :: y).getLast?) :
    ¬ stringReader.Reads (y ++ '"' :: u) := by
  intro reads
  have escaped := (reads_of_escaped reads).1
  rcases List.eq_nil_or_concat y with rfl | ⟨front, c, rfl⟩
  · exact absurd equals (by decide)
  · rw [List.concat_eq_append, ← List.cons_append, List.getLast?_concat] at equals
    obtain rfl := Option.some.inj equals
    rw [List.concat_eq_append, Reader.run_append, Option.bind_eq_some_iff] at escaped
    obtain ⟨e, -, last⟩ := escaped
    simp [Reader.run, stringReader] at last

section Synchronize

variable {tail l z : List Char} (tailComma : tail.head? = some ',') (tailPlain : '"' ∉ tail)
  (noQuote : '"' ∉ l) (noBackslash : '\\' ∉ l) (goesOn : z.head? ≠ some ',')
include tailComma tailPlain noQuote noBackslash goesOn

/-- **A quoted literal is read as such.** If `l` between a closing and an opening
quote, and then something that no closing quote is followed by, is part of a text of
strings, then `l` is between two of its strings. -/
theorem quoted_synchronizes {u w : List Char} {more : List (List Char × List Char)}
    (reads : stringReader.Reads w)
    (strings : ∀ p ∈ more, Between p.1 ∧ stringReader.Reads p.2)
    (same : u ++ '"' :: (l ++ '"' :: z) = quotedText tail w more) :
    ∃ before w' after, more = before ++ (l, w') :: after ∧ z = quotedText tail w' after := by
  have plain := reads_of_plain noQuote noBackslash
  -- `l` is not the content of a string, for `z` would follow its closing quote.
  have notInside : ∀ {m y : List Char}, stringReader.Reads m → y.head? = some ',' →
      l ++ '"' :: z ≠ m ++ '"' :: y := by
    intro m y content comma eq
    obtain ⟨-, -, rfl⟩ := stringReader.reads_unique plain content (by decide) (by decide) eq
    exact goesOn comma
  induction more generalizing u w with
  | nil =>
      rcases divide same with ⟨-, -, rest⟩ | ⟨m, -, rest⟩ | ⟨m, rfl, rest⟩
      · exact absurd (rest ▸ by simp) tailPlain
      · exact absurd (rest ▸ by simp) tailPlain
      · exact absurd rest (notInside (reads_of_escaped reads).2 tailComma)
  | cons p more ih =>
      obtain ⟨l', w'⟩ := p
      obtain ⟨⟨between, content⟩, others⟩ := List.forall_mem_cons.mp strings
      have comma : (l' ++ '"' :: quotedText tail w' more).head? = some ',' := by
        rw [List.head?_append, between.comma]
        rfl
      rcases divide same with ⟨-, -, rest⟩ | ⟨m, -, rest⟩ | ⟨m, rfl, rest⟩
      · -- both quotes are those around `l'`
        rcases divide rest with ⟨rfl, -, rfl⟩ | ⟨m, rfl, -⟩ | ⟨m, rfl, -⟩
        · exact ⟨[], w', more, rfl, rfl⟩
        · exact absurd (by simp) noQuote
        · exact absurd (by simp) between.noQuote
      · rcases divide rest with ⟨-, -, opened⟩ | ⟨m', rfl, -⟩ | ⟨m', rfl, later⟩
        · -- the first quote would open `w'`
          cases more with
          | nil => exact absurd opened.symm (notInside content tailComma)
          | cons q more =>
              have next : (q.1 ++ '"' :: quotedText tail q.2 more).head? = some ',' := by
                rw [List.head?_append, (List.forall_mem_cons.mp others).1.1.comma]
                rfl
              exact absurd opened.symm (notInside content next)
        · exact absurd (by simp) between.noQuote
        · obtain ⟨before, w'', after, rfl, done⟩ := ih content others later.symm
          exact ⟨(l', w') :: before, w'', after, rfl, done⟩
      · exact absurd rest (notInside (reads_of_escaped reads).2 comma)

/-- Among different literals it is at its own place. -/
theorem quoted_first {u w w' : List Char} {more : List (List Char × List Char)}
    (reads : stringReader.Reads w)
    (strings : ∀ p ∈ (l, w') :: more, Between p.1 ∧ stringReader.Reads p.2)
    (apart : l ∉ more.map Prod.fst)
    (same : u ++ '"' :: (l ++ '"' :: z) = quotedText tail w ((l, w') :: more)) :
    u = w ∧ z = quotedText tail w' more := by
  obtain ⟨before, v, after, split, rfl⟩ := quoted_synchronizes tailComma tailPlain noQuote
    noBackslash goesOn reads strings same
  cases before with
  | nil =>
      obtain ⟨pair, rfl⟩ := List.cons.inj split
      obtain rfl := (Prod.mk.inj pair).2
      exact ⟨List.append_cancel_right same, rfl⟩
  | cons p before =>
      have listed : l ∈ more.map Prod.fst := by
        rw [(List.cons.inj split).2]
        simp
      exact absurd listed apart

/-- So is the token before the first quote: what stands between them, from a key to
an equals sign, cannot be part of the token or of a string. -/
theorem token_first {s token key between u w w' : List Char}
    {more : List (List Char × List Char)} (readsToken : (tokenReader keyStops).Reads token)
    (readsKey : (tokenReader keyStops).Reads key) (starts : key ++ ['='] <+: between)
    (ends : ['='] <:+ between) (plain : '"' ∉ between) (reads : stringReader.Reads w)
    (strings : ∀ p ∈ (l, w') :: more, Between p.1 ∧ stringReader.Reads p.2)
    (apart : l ∉ more.map Prod.fst)
    (same : s ++ ',' :: (between ++ '"' :: (u ++ '"' :: (l ++ '"' :: z))) =
      token ++ ',' :: (between ++ '"' :: quotedText tail w ((l, w') :: more))) : s = token := by
  rcases divide same with ⟨whole, -, -⟩ | ⟨m, rfl, rest⟩ | ⟨m, rfl, rest⟩
  · exact whole
  · -- `s` would hold the token and all of `between`; then `w` holds `between` with its quote
    have front : between ++ '"' :: quotedText tail w ((l, w') :: more) =
        (m ++ ',' :: (between ++ '"' :: u)) ++ '"' :: (l ++ '"' :: z) := by
      rw [rest]
      simp only [List.append_assoc, List.cons_append]
    rcases divide front with ⟨eq, -, -⟩ | ⟨x, eq, -⟩ | ⟨x, eq, inner⟩
    · exact absurd (eq ▸ by simp) plain
    · exact absurd (eq ▸ by simp) plain
    · obtain ⟨rfl, -⟩ := quoted_first tailComma tailPlain noQuote noBackslash goesOn reads strings
        apart inner.symm
      have twice : (m ++ ',' :: between) ++ '"' :: u = between ++ '"' :: x := by
        rw [← eq]
        simp only [List.append_assoc, List.cons_append]
      have longer : between.length < (m ++ ',' :: between).length := by
        rw [List.length_append, List.length_cons]
        omega
      rcases divide twice with ⟨eq', -, -⟩ | ⟨y, eq', rfl⟩ | ⟨y, eq', -⟩
      · rw [eq'] at longer
        exact absurd longer (Nat.lt_irrefl _)
      · refine absurd reads (not_reads_of_equals ?_)
        obtain ⟨t, rfl⟩ := ends
        have lasts : ((m ++ ',' :: t) ++ ['=']).getLast? = ((t ++ ['=']) ++ '"' :: y).getLast? := by
          rw [← eq']
          simp
        rw [List.getLast?_append_of_ne_nil _ (by simp), List.getLast?_append_cons] at lasts
        exact lasts
      · have shorter := congrArg List.length eq'
        rw [List.length_append] at shorter
        omega
  · obtain ⟨-, readsRest⟩ := Reader.reads_of_stop (by rfl) (by rfl) readsToken
    obtain ⟨t, rfl⟩ := starts
    rw [List.append_assoc, List.append_assoc, List.singleton_append] at rest
    obtain ⟨-, wrong, -⟩ := (tokenReader keyStops).reads_unique readsKey readsRest (by rfl) (by rfl)
      rest
    exact absurd wrong (by decide)

end Synchronize

end LineProtocol
