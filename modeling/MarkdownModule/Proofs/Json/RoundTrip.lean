import MarkdownModule.Proofs.Json.Number
import MarkdownModule.Proofs.Json.Quote

/-!
# Values are read as they are written

* `Json.decode?`            the value that a text denotes
* `Json.Value.WellFormed`   well-formed numbers, and no key twice in an object
* `Json.decode?_write`      the text of a value denotes the value
-/

namespace MarkdownModule.Json

/-! ## the value of a text -/

mutual

/-- the value that a form denotes, every number rounded once -/
def Form.value? : Form → Option Value
  | .null => some .null
  | .bool b => some (.bool b)
  | .number s => ((Lexeme.ofText s).nearest?).map .number
  | .string us => (unitsText? us).map .string
  | .array items => (itemValues? items).map .array
  | .object members => (memberValues? members).map fun ms => .object (putAll ms)

def itemValues? : List Form → Option (List Value)
  | [] => some []
  | f :: fs => f.value?.bind fun v => (itemValues? fs).map (v :: ·)

def memberValues? : List (List StringUnit × Form) → Option (List (Text × Value))
  | [] => some []
  | (k, f) :: fs =>
    (unitsText? k).bind fun key => f.value?.bind fun v => (memberValues? fs).map ((key, v) :: ·)

end

def decode? (s : Text) : Option Value := (parseForm? s).bind Form.value?

/-- the numbers of the value are well formed, and no object has a key twice -/
inductive Value.WellFormed : Value → Prop
  | null : WellFormed .null
  | bool (b : Bool) : WellFormed (.bool b)
  | number {n : Number} (h : n.WellFormed) : WellFormed (.number n)
  | string (s : Text) : WellFormed (.string s)
  | array {items : List Value} (h : ∀ v ∈ items, WellFormed v) : WellFormed (.array items)
  | object {members : List (Text × Value)} (hk : (members.map Prod.fst).Nodup)
      (h : ∀ m ∈ members, WellFormed m.2) : WellFormed (.object members)

/-! ## the members of an object -/

theorem put_of_not_mem {key : Text} {ms : List (Text × Value)} (v : Value)
    (h : key ∉ ms.map Prod.fst) : put key v ms = ms ++ [(key, v)] := by
  induction ms with
  | nil => rfl
  | cons m ms ih =>
    rw [List.map_cons, List.mem_cons, not_or] at h
    obtain ⟨hm, hms⟩ := h
    rw [put, if_neg fun e => hm e.symm, ih hms, List.cons_append]

theorem putAll_eq_self {ms : List (Text × Value)} (h : (ms.map Prod.fst).Nodup) :
    putAll ms = ms := by
  have key : ∀ (acc ms : List (Text × Value)), ((acc ++ ms).map Prod.fst).Nodup →
      ms.foldl (fun acc m => put m.1 m.2 acc) acc = acc ++ ms := by
    intro acc ms
    induction ms generalizing acc with
    | nil => intro _; exact (List.append_nil acc).symm
    | cons m ms ih =>
      intro hn
      have hm : m.1 ∉ acc.map Prod.fst := by
        rw [List.map_append, List.map_cons, List.nodup_append] at hn
        exact fun hmem => hn.2.2 m.1 hmem m.1 List.mem_cons_self rfl
      rw [List.foldl_cons, put_of_not_mem m.2 hm, ih _ (by simpa using hn), List.append_assoc]
      rfl
  exact key [] ms h

/-! ## reading what is written -/

/-- the text begins with a value, and is read as this value whatever stands behind it -/
structure ReadsAs (s : Text) (v : Value) : Prop where
  head : ∃ c t, s = c :: t ∧ isGap c = false ∧ c ≠ ']'
  form : ∃ f, f.value? = some v ∧
    ∀ fuel r, s.length ≤ fuel → EndsNumber r → readValue fuel (s ++ r) = some (f, r)

theorem skipGap_cons {c : Char} (h : isGap c = false) (r : Text) : skipGap (c :: r) = c :: r := by
  unfold skipGap
  exact List.dropWhile_cons_of_neg (by simp [h])

theorem endsNumber_cons {c : Char} (h : c = ',' ∨ c = ']' ∨ c = '\x7d' ∨ c = ' ') (r : Text) :
    EndsNumber (c :: r) := by
  intro d hd
  obtain rfl := Option.some.inj hd
  rcases h with rfl | rfl | rfl | rfl
  · decide
  · decide
  · decide
  · decide

section
variable {fuel : Nat} {s t r : Text} {f : Form} {us : List StringUnit}

theorem readItems_last (h : readValue fuel s = some (f, r)) (hr : skipGap r = ']' :: t) :
    readItems (fuel + 1) s = some ([f], t) := by
  rw [readItems, h]
  dsimp only [Option.bind_eq_bind, Option.bind_some]
  rw [hr]
  rfl

theorem readItems_comma (h : readValue fuel s = some (f, r)) (hr : skipGap r = ',' :: t)
    {fs : List Form} {u : Text} (ht : readItems fuel t = some (fs, u)) :
    readItems (fuel + 1) s = some (f :: fs, u) := by
  rw [readItems, h]
  dsimp only [Option.bind_eq_bind, Option.bind_some]
  rw [hr]
  show ((readItems fuel t).bind fun a => some (f :: a.1, a.2)) = _
  rw [ht]
  rfl

theorem readMembers_last {m k s' : Text} (hm : skipGap m = '"' :: s)
    (hk : readUnits s = some (us, k)) (hc : skipGap k = ':' :: s')
    (hv : readValue fuel s' = some (f, r)) (hr : skipGap r = '\x7d' :: t) :
    readMembers (fuel + 1) m = some ([(us, f)], t) := by
  rw [readMembers, hm]
  simp only [hk, hc, hv, hr, Option.bind_eq_bind, Option.bind_some]

theorem readMembers_comma {m k s' : Text} (hm : skipGap m = '"' :: s)
    (hk : readUnits s = some (us, k)) (hc : skipGap k = ':' :: s')
    (hv : readValue fuel s' = some (f, r)) (hr : skipGap r = ',' :: t)
    {ms : List (List StringUnit × Form)} {u : Text} (ht : readMembers fuel t = some (ms, u)) :
    readMembers (fuel + 1) m = some ((us, f) :: ms, u) := by
  rw [readMembers, hm]
  simp only [hk, hc, hv, hr, ht, Option.bind_eq_bind, Option.bind_some]

/-- a bracket that no closing bracket follows begins the items of an array -/
theorem readValue_items {c : Char} (h : skipGap s = c :: t) (hc : c ≠ ']') :
    readValue (fuel + 1) ('[' :: s) = (readItems fuel s).map fun t => (.array t.1, t.2) := by
  rw [readValue, skipGap_cons rfl]
  dsimp only
  rw [if_neg (by decide), if_neg (by decide), if_neg (by decide), if_neg (by decide), if_pos rfl, h]
  split
  · rename_i e
    exact absurd (List.cons.inj e).1 hc
  · rfl

/-- a brace that a quote follows begins the members of an object -/
theorem readValue_members (h : skipGap s = '"' :: t) :
    readValue (fuel + 1) ('\x7b' :: s) = (readMembers fuel s).map fun t => (.object t.1, t.2) := by
  rw [readValue, skipGap_cons rfl]
  dsimp only
  rw [if_neg (by decide), if_neg (by decide), if_neg (by decide), if_neg (by decide),
    if_neg (by decide), if_pos rfl, h]
  rfl

end

theorem readsAs_null : ReadsAs "null".toList .null where
  head := ⟨'n', "ull".toList, rfl, rfl, by decide⟩
  form := by
    refine ⟨.null, by rw [Form.value?], fun fuel r hf _ => ?_⟩
    obtain ⟨fuel, rfl⟩ : ∃ n, fuel = n + 1 := ⟨fuel - 1, by simp at hf; omega⟩
    rfl

theorem readsAs_bool (b : Bool) (escape : Char → Text) :
    ReadsAs ((Value.bool b).write escape) (.bool b) := by
  cases b with
  | true =>
    refine ⟨⟨'t', "rue".toList, by rw [Value.write]; rfl, rfl, by decide⟩, .bool true,
      by rw [Form.value?], fun fuel r hf _ => ?_⟩
    rw [Value.write] at hf ⊢
    obtain ⟨fuel, rfl⟩ : ∃ n, fuel = n + 1 := ⟨fuel - 1, by simp at hf; omega⟩
    rfl
  | false =>
    refine ⟨⟨'f', "alse".toList, by rw [Value.write]; rfl, rfl, by decide⟩, .bool false,
      by rw [Form.value?], fun fuel r hf _ => ?_⟩
    rw [Value.write] at hf ⊢
    obtain ⟨fuel, rfl⟩ : ∃ n, fuel = n + 1 := ⟨fuel - 1, by simp at hf; omega⟩
    rfl

/-- what a number begins with is no other character -/
theorem ne_of_number {c d : Char} (h : c = '-' ∨ c.isDigit = true)
    (hd : ¬ (d = '-' ∨ d.isDigit = true)) : c ≠ d := fun e => hd (e ▸ h)

theorem isGap_of_number {c : Char} (h : c = '-' ∨ c.isDigit = true) : isGap c = false := by
  unfold isGap
  simp only [Bool.or_eq_false_iff, decide_eq_false_iff_not]
  exact ⟨⟨⟨ne_of_number h (by decide), ne_of_number h (by decide)⟩, ne_of_number h (by decide)⟩,
    ne_of_number h (by decide)⟩

theorem readValue_number {c : Char} (h : c = '-' ∨ c.isDigit = true) (fuel : Nat) (s : Text) :
    readValue (fuel + 1) (c :: s) = (readNumber (c :: s)).map fun t => (.number t.1, t.2) := by
  rw [readValue, skipGap_cons (isGap_of_number h)]
  dsimp only
  rw [if_neg (ne_of_number h (by decide)), if_neg (ne_of_number h (by decide)),
    if_neg (ne_of_number h (by decide)), if_neg (ne_of_number h (by decide)),
    if_neg (ne_of_number h (by decide)), if_neg (ne_of_number h (by decide)),
    if_pos (by simpa using h)]

theorem readsAs_number {n : Number} (h : n.WellFormed) : ReadsAs n.write (.number n) := by
  obtain ⟨l, hl, htext, hn⟩ := n.exists_lexeme h
  obtain ⟨c, t, he, hc⟩ := (Lexeme.numberSpelling hl).head
  rw [← htext]
  refine ⟨⟨c, t, he, isGap_of_number hc, ne_of_number hc (by decide)⟩, .number l.text, ?_,
    fun fuel r hf hr => ?_⟩
  · rw [Form.value?, Lexeme.ofText_text hl, hn]
    rfl
  · have hread := (Lexeme.numberSpelling hl).read hr
    rw [he] at hf hread ⊢
    obtain ⟨fuel, rfl⟩ : ∃ n, fuel = n + 1 := ⟨fuel - 1, by simp at hf; omega⟩
    rw [List.cons_append] at hread ⊢
    rw [readValue_number hc, hread]
    rfl

section
variable {escape : Char → Text} (he : ReadsBack escape)
include he

theorem readsAs_string (s : Text) : ReadsAs (quote escape s) (.string s) := by
  obtain ⟨us, hus, hread⟩ := readUnits_quote he s
  refine ⟨⟨'"', _, rfl, rfl, by decide⟩, .string us, by rw [Form.value?, hus]; rfl,
    fun fuel r hf _ => ?_⟩
  obtain ⟨fuel, rfl⟩ : ∃ n, fuel = n + 1 := ⟨fuel - 1, by unfold quote at hf; simp at hf; omega⟩
  have e : quote escape s ++ r = '"' :: (s.flatMap escape ++ '"' :: r) := by
    unfold quote
    simp
  rw [e, readValue, skipGap_cons rfl]
  show ((readUnits (s.flatMap escape ++ '"' :: r)).map fun t => (Form.string t.1, t.2)) = _
  rw [hread]
  rfl

omit he in
/-- the items of an array are read up to its closing bracket -/
theorem readItems_write {vs : List Value} (hne : vs ≠ [])
    (h : ∀ v ∈ vs, ReadsAs (v.write escape) v) :
    ∃ fs, itemValues? fs = some vs ∧ ∀ fuel r, (writeItems escape vs).length < fuel →
      readItems fuel (writeItems escape vs ++ ']' :: r) = some (fs, r) := by
  induction vs with
  | nil => exact absurd rfl hne
  | cons v vs ih =>
    obtain ⟨hv, hvs⟩ := List.forall_mem_cons.1 h
    obtain ⟨f, hf, hread⟩ := hv.form
    cases vs with
    | nil =>
      refine ⟨[f], by rw [itemValues?, hf, itemValues?]; rfl, fun fuel r hfuel => ?_⟩
      rw [writeItems] at hfuel ⊢
      obtain ⟨fuel, rfl⟩ : ∃ n, fuel = n + 1 := ⟨fuel - 1, by omega⟩
      exact readItems_last (hread fuel _ (by omega) (endsNumber_cons (by simp) r)) (skipGap_cons rfl r)
    | cons w vs =>
      obtain ⟨fs, hfs, hrest⟩ := ih (List.cons_ne_nil w vs) hvs
      refine ⟨f :: fs, by rw [itemValues?, hf, hfs]; rfl, fun fuel r hfuel => ?_⟩
      rw [writeItems] at hfuel ⊢
      rw [List.length_append, List.length_cons] at hfuel
      obtain ⟨fuel, rfl⟩ : ∃ n, fuel = n + 1 := ⟨fuel - 1, by omega⟩
      rw [List.append_assoc, List.cons_append]
      exact readItems_comma (hread fuel _ (by omega) (endsNumber_cons (by simp) _))
        (skipGap_cons rfl _) (hrest fuel r (by omega))

omit he in
theorem head_writeItems {v : Value} (vs : List Value) (h : ReadsAs (v.write escape) v) :
    ∃ c t, writeItems escape (v :: vs) = c :: t ∧ isGap c = false ∧ c ≠ ']' := by
  obtain ⟨c, t, hv, hc⟩ := h.head
  cases vs with
  | nil => exact ⟨c, t, by rw [writeItems, hv], hc⟩
  | cons w vs => exact ⟨c, _, by rw [writeItems, hv, List.cons_append], hc⟩

omit he in
theorem readsAs_array {vs : List Value} (h : ∀ v ∈ vs, ReadsAs (v.write escape) v) :
    ReadsAs ((Value.array vs).write escape) (.array vs) := by
  rw [Value.write]
  cases vs with
  | nil =>
    refine ⟨⟨'[', _, rfl, rfl, by decide⟩, .array [], by rw [Form.value?, itemValues?]; rfl,
      fun fuel r hf _ => ?_⟩
    obtain ⟨fuel, rfl⟩ : ∃ n, fuel = n + 1 := ⟨fuel - 1, by simp at hf; omega⟩
    rw [writeItems]
    rfl
  | cons v vs =>
    obtain ⟨fs, hfs, hread⟩ := readItems_write (List.cons_ne_nil v vs) h
    obtain ⟨c, t, hw, hgap, hc⟩ := head_writeItems vs (h v List.mem_cons_self)
    refine ⟨⟨'[', _, rfl, rfl, by decide⟩, .array fs, by rw [Form.value?, hfs]; rfl,
      fun fuel r hf _ => ?_⟩
    simp only [List.length_cons, List.length_append, List.length_nil] at hf
    obtain ⟨fuel, rfl⟩ : ∃ n, fuel = n + 1 := ⟨fuel - 1, by omega⟩
    have hitems := hread fuel r (by omega)
    simp only [List.cons_append, List.append_assoc, List.nil_append]
    rw [hw, List.cons_append] at hitems ⊢
    rw [readValue_items (skipGap_cons hgap _) hc, hitems]
    rfl

/-- the members of an object are read up to its closing brace -/
theorem readMembers_write {ms : List (Text × Value)} (hne : ms ≠ [])
    (h : ∀ m ∈ ms, ReadsAs (m.2.write escape) m.2) :
    ∃ fs, memberValues? fs = some ms ∧ ∀ fuel r, (writeMembers escape ms).length < fuel →
      readMembers fuel (writeMembers escape ms ++ '\x7d' :: r) = some (fs, r) := by
  induction ms with
  | nil => exact absurd rfl hne
  | cons m ms ih =>
    obtain ⟨k, v⟩ := m
    obtain ⟨hv, hms⟩ := List.forall_mem_cons.1 h
    have hv : ReadsAs (v.write escape) v := hv
    obtain ⟨f, hf, hread⟩ := hv.form
    obtain ⟨us, hus, hkey⟩ := readUnits_quote he k
    have hquote : ∀ s, quote escape k ++ s = '"' :: (k.flatMap escape ++ '"' :: s) := by
      intro s
      unfold quote
      simp
    cases ms with
    | nil =>
      refine ⟨[(us, f)], by rw [memberValues?, hus, hf, memberValues?]; rfl, fun fuel r hfuel => ?_⟩
      rw [writeMembers] at hfuel ⊢
      rw [List.length_append, List.length_cons] at hfuel
      obtain ⟨fuel, rfl⟩ : ∃ n, fuel = n + 1 := ⟨fuel - 1, by omega⟩
      rw [List.append_assoc, List.cons_append, hquote]
      have hvalue := hread fuel _ (by omega) (endsNumber_cons (.inr (.inr (.inl rfl))) r)
      exact readMembers_last (skipGap_cons rfl _) (hkey _) (skipGap_cons rfl _) hvalue
        (skipGap_cons rfl _)
    | cons n ms =>
      obtain ⟨fs, hfs, hrest⟩ := ih (List.cons_ne_nil n ms) hms
      refine ⟨(us, f) :: fs, by rw [memberValues?, hus, hf, hfs]; rfl, fun fuel r hfuel => ?_⟩
      rw [writeMembers] at hfuel ⊢
      rw [List.length_append, List.length_cons, List.length_append, List.length_cons] at hfuel
      obtain ⟨fuel, rfl⟩ : ∃ n, fuel = n + 1 := ⟨fuel - 1, by omega⟩
      rw [List.append_assoc, List.append_assoc, List.cons_append, List.cons_append, hquote]
      exact readMembers_comma (skipGap_cons rfl _) (hkey _) (skipGap_cons rfl _)
        (hread fuel _ (by omega) (endsNumber_cons (by simp) _)) (skipGap_cons rfl _)
        (hrest fuel r (by omega))

theorem readsAs_object {ms : List (Text × Value)} (hk : (ms.map Prod.fst).Nodup)
    (h : ∀ m ∈ ms, ReadsAs (m.2.write escape) m.2) :
    ReadsAs ((Value.object ms).write escape) (.object ms) := by
  rw [Value.write]
  cases ms with
  | nil =>
    refine ⟨⟨'\x7b', _, rfl, rfl, by decide⟩, .object [], by rw [Form.value?, memberValues?]; rfl,
      fun fuel r hf _ => ?_⟩
    obtain ⟨fuel, rfl⟩ : ∃ n, fuel = n + 1 := ⟨fuel - 1, by simp at hf; omega⟩
    rw [writeMembers]
    rfl
  | cons m ms =>
    obtain ⟨fs, hfs, hread⟩ := readMembers_write he (List.cons_ne_nil m ms) h
    have hhead : ∃ t, writeMembers escape (m :: ms) = '"' :: t := by
      cases ms with
      | nil => exact ⟨_, by rw [writeMembers]; rfl⟩
      | cons n ms => exact ⟨_, by rw [writeMembers]; rfl⟩
    obtain ⟨t, hw⟩ := hhead
    refine ⟨⟨'\x7b', _, rfl, rfl, by decide⟩, .object fs, ?_, fun fuel r hf _ => ?_⟩
    · rw [Form.value?, hfs, Option.map_some, putAll_eq_self hk]
    · simp only [List.length_cons, List.length_append, List.length_nil] at hf
      obtain ⟨fuel, rfl⟩ : ∃ n, fuel = n + 1 := ⟨fuel - 1, by omega⟩
      have hmembers := hread fuel r (by omega)
      simp only [List.cons_append, List.append_assoc, List.nil_append]
      rw [hw, List.cons_append] at hmembers ⊢
      rw [readValue, skipGap_cons rfl]
      show ((readMembers fuel ('"' :: (t ++ '\x7d' :: r))).map
        fun t : List (List StringUnit × Form) × Text => (Form.object t.1, t.2)) = _
      rw [hmembers]
      rfl

/-- a well-formed value is read as it is written, whatever stands behind it -/
theorem readsAs_write {v : Value} (hv : v.WellFormed) : ReadsAs (v.write escape) v := by
  induction hv with
  | null => rw [Value.write]; exact readsAs_null
  | bool b => exact readsAs_bool b escape
  | number h => rw [Value.write]; exact readsAs_number h
  | string s => rw [Value.write]; exact readsAs_string he s
  | array _ ih => exact readsAs_array ih
  | object hk _ ih => exact readsAs_object he hk ih

end

/-! ## whole texts -/

theorem ReadsAs.decode? {s : Text} {v : Value} (h : ReadsAs s v) : decode? s = some v := by
  obtain ⟨f, hf, hread⟩ := h.form
  have hparse : parseForm? s = some f := by
    have := hread (2 * s.length + 1) [] (by omega) (fun c hc => nomatch hc)
    rw [List.append_nil] at this
    unfold parseForm?
    rw [this]
    rfl
  unfold Json.decode?
  rw [hparse]
  exact hf

/-- **The text of a value denotes the value.** -/
theorem decode?_write {escape : Char → Text} (he : ReadsBack escape) {v : Value}
    (hv : v.WellFormed) : decode? (v.write escape) = some v :=
  (readsAs_write he hv).decode?

/-- the literal of a string denotes the string -/
theorem decode?_quote {escape : Char → Text} (he : ReadsBack escape) (s : Text) :
    decode? (quote escape s) = some (.string s) :=
  (readsAs_string he s).decode?

/-- a gap in front of a value does not count -/
theorem readValue_gap {c : Char} (hc : isGap c = true) (fuel : Nat) (s : Text) :
    readValue fuel (c :: s) = readValue fuel s := by
  cases fuel with
  | zero => rfl
  | succ fuel =>
    have hskip : skipGap (c :: s) = skipGap s := List.dropWhile_cons_of_pos hc
    rw [readValue, hskip, readValue]

/-- an object with one member that is written with spaces -/
theorem decode?_member {escape : Char → Text} (he : ReadsBack escape) (key : Text) {s : Text}
    {v : Value} (h : ReadsAs s v) :
    decode? ('\x7b' :: ' ' :: (quote escape key ++ ':' :: ' ' :: (s ++ [' ', '\x7d']))) =
      some (.object [(key, v)]) := by
  obtain ⟨f, hf, hread⟩ := h.form
  obtain ⟨us, hus, hkey⟩ := readUnits_quote he key
  have hvalue : ∀ fuel, s.length ≤ fuel →
      readValue fuel (' ' :: (s ++ [' ', '\x7d'])) = some (f, [' ', '\x7d']) := by
    intro fuel hfuel
    rw [readValue_gap rfl]
    exact hread fuel _ hfuel (endsNumber_cons (by simp) _)
  have hmembers : ∀ fuel, s.length ≤ fuel →
      readMembers (fuel + 1) (' ' :: (quote escape key ++ ':' :: ' ' :: (s ++ [' ', '\x7d']))) =
        some ([(us, f)], []) := by
    intro fuel hfuel
    refine readMembers_last ?_ (hkey _) (skipGap_cons rfl _) (hvalue fuel hfuel) rfl
    unfold quote
    simp [skipGap, isGap]
  have hparse : parseForm? ('\x7b' :: ' ' ::
      (quote escape key ++ ':' :: ' ' :: (s ++ [' ', '\x7d']))) = some (.object [(us, f)]) := by
    unfold parseForm?
    generalize hn : List.length _ = n
    simp only [List.length_cons, List.length_append, List.length_nil] at hn
    obtain ⟨k, rfl⟩ : ∃ k, n = k + 1 := ⟨n - 1, by omega⟩
    have hfuel : 2 * (k + 1) + 1 = 2 * k + 1 + 1 + 1 := by omega
    rw [hfuel, readValue, skipGap_cons rfl]
    show (((readMembers (2 * k + 1 + 1) _).map
      fun t : List (List StringUnit × Form) × Text => (Form.object t.1, t.2)).bind _) = _
    rw [hmembers (2 * k + 1) (by omega)]
    rfl
  unfold decode?
  rw [hparse, Option.bind_some, Form.value?, memberValues?, hus, hf, memberValues?]
  rfl

end MarkdownModule.Json
