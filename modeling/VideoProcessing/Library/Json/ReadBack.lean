import VideoProcessing.Library.Json.Numbers
import VideoProcessing.Library.Json.Strings

/-!
# Reading JSON back

What `dumps` writes `loads` reads back, for every value that can be written. The one difference is
that of a string with surrogates: two that make a pair are read as the character they stand for.
-/

namespace Json

open Python Utf8

/-! ## Values -/

mutual

/-- A value as it is read back. -/
def Value.joined : Value → Value
  | .null => .null
  | .bool b => .bool b
  | .number text => .number text
  | .string s => .string (joinSurrogates s)
  | .array items => .array (joinedItems items)
  | .object fields => .object (joinedFields fields)

def joinedItems : List Value → List Value
  | [] => []
  | item :: items => item.joined :: joinedItems items

def joinedFields : List (Str × Value) → List (Str × Value)
  | [] => []
  | (key, value) :: fields => (joinSurrogates key, value.joined) :: joinedFields fields

end

/-- A value that can be written: its texts are texts and its numbers are numbers. -/
inductive WellFormed : Value → Prop
  | null : WellFormed .null
  | bool (b : Bool) : WellFormed (.bool b)
  | number {text : Str} (h : IsNumber text) : WellFormed (.number text)
  | string {s : Str} (h : ∀ c ∈ s, c < 0x110000) : WellFormed (.string s)
  | array {items : List Value} (h : ∀ item ∈ items, WellFormed item) : WellFormed (.array items)
  | object {fields : List (Str × Value)} (hkeys : ∀ field ∈ fields, ∀ c ∈ field.1, c < 0x110000)
      (h : ∀ field ∈ fields, WellFormed field.2) : WellFormed (.object fields)

/-- A value of strings, arrays and objects, whose texts have no surrogates. -/
inductive Textual : Value → Prop
  | null : Textual .null
  | bool (b : Bool) : Textual (.bool b)
  | string {s : Str} (h : ∀ c ∈ s, Scalar c) : Textual (.string s)
  | array {items : List Value} (h : ∀ item ∈ items, Textual item) : Textual (.array items)
  | object {fields : List (Str × Value)} (hkeys : ∀ field ∈ fields, ∀ c ∈ field.1, Scalar c)
      (h : ∀ field ∈ fields, Textual field.2) : Textual (.object fields)

/-- An object with one field. -/
theorem Textual.singleton {key : Str} {value : Value} (hkey : ∀ c ∈ key, Scalar c)
    (h : Textual value) : Textual (.object [(key, value)]) :=
  .object (List.forall_mem_singleton.mpr hkey) (List.forall_mem_singleton.mpr h)

/-- A text value can be dumped. -/
theorem Textual.wellFormed {v : Value} (h : Textual v) : WellFormed v := by
  induction h with
  | null => exact .null
  | bool b => exact .bool b
  | string hs => exact .string fun c hc => lt_of_scalar (hs c hc)
  | array _ ih => exact .array ih
  | object hkeys _ ih =>
    exact .object (fun field hfield c hc => lt_of_scalar (hkeys field hfield c hc)) ih

/-- Items without surrogate pairs stay as they are. -/
theorem joinedItems_of_forall {items : List Value} (h : ∀ item ∈ items, item.joined = item) :
    joinedItems items = items := by
  induction items with
  | nil => rfl
  | cons item items ih =>
    obtain ⟨hitem, hitems⟩ := List.forall_mem_cons.mp h
    rw [joinedItems, hitem, ih hitems]

/-- And so do fields. -/
theorem joinedFields_of_forall {fields : List (Str × Value)}
    (hkeys : ∀ field ∈ fields, ∀ c ∈ field.1, Scalar c)
    (h : ∀ field ∈ fields, field.2.joined = field.2) : joinedFields fields = fields := by
  induction fields with
  | nil => rfl
  | cons field fields ih =>
    obtain ⟨hkey, hkeys⟩ := List.forall_mem_cons.mp hkeys
    obtain ⟨hfield, hfields⟩ := List.forall_mem_cons.mp h
    rw [joinedFields, joinSurrogates_of_scalar hkey, hfield, ih hkeys hfields]

/-- A value without surrogates is read back as it is. -/
theorem Textual.joined {v : Value} (h : Textual v) : v.joined = v := by
  induction h with
  | null => rw [Value.joined]
  | bool b => rw [Value.joined]
  | string hs => rw [Value.joined, joinSurrogates_of_scalar hs]
  | array _ ih => rw [Value.joined, joinedItems_of_forall ih]
  | object hkeys _ ih => rw [Value.joined, joinedFields_of_forall hkeys ih]

/-! ## What is written -/

/-- The first character of a value is none that may follow an opening bracket or a comma. -/
theorem dumps_head {v : Value} (h : WellFormed v) : ∃ c t, dumps v = c :: t ∧
    (c ∈ [110, 116, 102, 34, 91, 123, 45, 78, 73] ∨ isDigit c = true) := by
  cases h with
  | null => exact ⟨_, _, rfl, .inl (by decide)⟩
  | bool b => cases b <;> exact ⟨_, _, rfl, .inl (by decide)⟩
  | number htext =>
    obtain ⟨c, t, rfl, hc⟩ := htext.head
    refine ⟨c, t, by rw [dumps], ?_⟩
    rcases hc with rfl | hc | rfl | rfl
    exacts [.inl (by decide), .inr hc, .inl (by decide), .inl (by decide)]
  | string => exact ⟨_, _, rfl, .inl (by decide)⟩
  | @array items =>
    refine ⟨91, (dumps (.array items)).tail, ?_, .inl (by decide)⟩
    cases items <;> rw [dumps] <;> rfl
  | @object fields =>
    refine ⟨123, (dumps (.object fields)).tail, ?_, .inl (by decide)⟩
    cases fields <;> rw [dumps] <;> rfl

/-- So it is not a blank, it does not close an array, and it is no byte order mark. -/
theorem dumps_cons {v : Value} (h : WellFormed v) : ∃ c t, dumps v = c :: t ∧
    ¬ (c = 32 || c = 9 || c = 10 || c = 13) = true ∧ c ≠ 93 ∧ c ≠ 0xFEFF := by
  obtain ⟨c, t, heq, hc⟩ := dumps_head h
  refine ⟨c, t, heq, ?_⟩
  simp only [List.mem_cons, List.not_mem_nil, or_false, isDigit, Bool.and_eq_true,
    decide_eq_true_eq] at hc
  simp only [Bool.or_eq_true, decide_eq_true_eq]
  omega

/-- A dumped value does not begin with white space. -/
theorem skipWs_dumps {v : Value} (h : WellFormed v) (s : Str) :
    skipWs (dumps v ++ s) = dumps v ++ s := by
  obtain ⟨c, t, heq, hc, -⟩ := dumps_cons h
  rw [heq, List.cons_append, skipWs]
  exact List.dropWhile_cons_of_neg hc

/-- The end of an array is always written. -/
theorem length_dumpsItems_pos (items : List Value) : 0 < (dumpsItems items).length := by
  cases items <;> simp [dumpsItems, str]

/-- And the end of an object. -/
theorem length_dumpsFields_pos (fields : List (Str × Value)) : 0 < (dumpsFields fields).length := by
  cases fields <;> simp [dumpsFields, str]

/-- What follows an item delimits it. -/
theorem delimited_dumpsItems (items : List Value) (rest : Str) :
    Delimited (dumpsItems items ++ rest) := by
  intro c hc
  cases items with
  | nil => exact .inr (.inl (Option.some.inj hc).symm)
  | cons => exact .inl (Option.some.inj hc).symm

/-- What follows a field delimits it. -/
theorem delimited_dumpsFields (fields : List (Str × Value)) (rest : Str) :
    Delimited (dumpsFields fields ++ rest) := by
  intro c hc
  cases fields with
  | nil => exact .inr (.inr (Option.some.inj hc).symm)
  | cons => exact .inl (Option.some.inj hc).symm

/-! ## What is read -/

/-- The value is read back with any bound its text fits. -/
def Reads (v : Value) : Prop :=
  ∀ (n : ℕ) (rest : Str), Delimited rest → (dumps v).length ≤ n →
    scanValue n (dumps v ++ rest) = some (v.joined, rest)

/-- The items of an array are read back one by one. -/
theorem scanItems_dumpsItems {items : List Value} (hform : ∀ item ∈ items, WellFormed item)
    (hreads : ∀ item ∈ items, Reads item) {n : ℕ} (hn : (dumpsItems items).length ≤ n)
    (rest : Str) : scanItems n (dumpsItems items ++ rest) = some (joinedItems items, rest) := by
  induction items generalizing n with
  | nil =>
    obtain ⟨n, rfl⟩ := Nat.exists_eq_add_one_of_ne_zero (Nat.ne_zero_of_lt hn)
    rfl
  | cons item items ih =>
    obtain ⟨hitem, hitems⟩ := List.forall_mem_cons.mp hreads
    obtain ⟨hf, hfs⟩ := List.forall_mem_cons.mp hform
    have hpos := length_dumpsItems_pos items
    have hcomma : (str ", ").length = 2 := rfl
    simp only [dumpsItems, List.length_append, hcomma] at hn
    obtain ⟨n, rfl⟩ : ∃ m, n = m + 1 := ⟨n - 1, by omega⟩
    have hskip : skipWs (32 :: (dumps item ++ (dumpsItems items ++ rest))) =
        dumps item ++ (dumpsItems items ++ rest) := skipWs_dumps hf _
    simp only [dumpsItems, List.append_assoc]
    change (scanValue n (skipWs (32 :: (dumps item ++ (dumpsItems items ++ rest))))).bind _ = _
    rw [hskip, hitem n _ (delimited_dumpsItems items rest) (by omega), Option.bind_some]
    dsimp only
    rw [ih hfs hitems (by omega), Option.map_some, joinedItems]

/-- A field is read back. -/
theorem scanField_dumps {key : Str} {value : Value} (hkey : ∀ c ∈ key, c < 0x110000)
    (hf : WellFormed value) (hvalue : Reads value) {n : ℕ}
    (hn : (dumpsString key).length + (dumps value).length ≤ n) {rest : Str}
    (hrest : Delimited rest) :
    scanField n (dumpsString key ++ (str ": " ++ (dumps value ++ rest))) =
      some ((joinSurrogates key, value.joined), rest) := by
  have hquotes : 2 ≤ (dumpsString key).length := by
    rw [dumpsString, List.length_cons, List.length_append, List.length_singleton]
    omega
  obtain ⟨n, rfl⟩ : ∃ m, n = m + 1 := ⟨n - 1, by omega⟩
  obtain ⟨hquoted, hscan⟩ := scanString_dumpsString hkey (n := n) (by omega)
    (str ": " ++ (dumps value ++ rest))
  have hskip : skipWs (32 :: (dumps value ++ rest)) = dumps value ++ rest := skipWs_dumps hf _
  rw [hquoted]
  simp only [scanField]
  rw [hscan, Option.bind_some]
  change (scanValue n (skipWs (32 :: (dumps value ++ rest)))).map _ = _
  rw [hskip, hvalue n _ hrest (by omega), Option.map_some]

/-- The fields of an object are read back one by one. -/
theorem scanFields_dumpsFields {fields : List (Str × Value)}
    (hkeys : ∀ field ∈ fields, ∀ c ∈ field.1, c < 0x110000)
    (hform : ∀ field ∈ fields, WellFormed field.2) (hreads : ∀ field ∈ fields, Reads field.2)
    {n : ℕ} (hn : (dumpsFields fields).length ≤ n) (rest : Str) :
    scanFields n (dumpsFields fields ++ rest) = some (joinedFields fields, rest) := by
  induction fields generalizing n with
  | nil =>
    obtain ⟨n, rfl⟩ := Nat.exists_eq_add_one_of_ne_zero (Nat.ne_zero_of_lt hn)
    rfl
  | cons field fields ih =>
    obtain ⟨key, value⟩ := field
    obtain ⟨hvalue, hvalues⟩ := List.forall_mem_cons.mp hreads
    obtain ⟨hkey, hkeys⟩ := List.forall_mem_cons.mp hkeys
    obtain ⟨hf, hfs⟩ := List.forall_mem_cons.mp hform
    dsimp only at hkey hf hvalue
    -- the fuel is the length of the text, of which each field takes its part
    have hpos := length_dumpsFields_pos fields
    have hcomma : (str ", ").length = 2 := rfl
    have hcolon : (str ": ").length = 2 := rfl
    simp only [dumpsFields, List.length_append, hcomma, hcolon] at hn
    obtain ⟨n, rfl⟩ : ∃ m, n = m + 1 := ⟨n - 1, by omega⟩
    simp only [dumpsFields, List.append_assoc]
    change (scanField n (dumpsString key ++
      (str ": " ++ (dumps value ++ (dumpsFields fields ++ rest))))).bind _ = _
    rw [scanField_dumps hkey hf hvalue (by omega) (delimited_dumpsFields fields rest),
      Option.bind_some]
    dsimp only
    rw [ih hkeys hfs hvalues (by omega), Option.map_some, joinedFields]

/-- A first item after the opening bracket. -/
theorem scanValue_array {n c : ℕ} {s s' : Str} (hc : c ≠ 93) (hskip : skipWs s = c :: s') :
    scanValue (n + 1) (91 :: s) = (scanValue n (c :: s')).bind fun (item, s) =>
      (scanItems n s).map fun (items, rest) => (.array (item :: items), rest) := by
  simp only [scanValue, hskip]
  split
  · exact absurd (List.cons.inj ‹_›).1 hc
  · rfl

/-- What is left to read takes fuel. -/
theorem exists_of_length_le {s t : Str} {c n : ℕ} (hn : s.length ≤ n) (hs : s = c :: t) :
    ∃ m, n = m + 1 := by
  subst hs
  exact Nat.exists_eq_add_one_of_ne_zero (Nat.ne_zero_of_lt hn)

/-- Numbers are read back. -/
theorem reads_number {text : Str} (htext : IsNumber text) : Reads (.number text) := by
  intro n rest hrest hn
  have hdumps : dumps (.number text) = text := by rw [dumps]
  obtain ⟨c, t, heq, hc⟩ := htext.head
  rw [hdumps] at hn ⊢
  obtain ⟨n, rfl⟩ : ∃ m, n = m + 1 := exists_of_length_le hn heq
  simp only [isDigit, Bool.and_eq_true, decide_eq_true_eq] at hc
  have hatom : scanValue (n + 1) (text ++ rest) = scanAtom (text ++ rest) := by
    rw [heq]
    exact scanValue_atom (by omega) (by omega) (by omega) _
  rw [hatom, scanAtom_number htext hrest, Value.joined]

/-- Strings are read back. -/
theorem reads_string {s : Str} (hs : ∀ c ∈ s, c < 0x110000) : Reads (.string s) := by
  intro n rest _ hn
  have hdumps : dumps (.string s) = dumpsString s := by rw [dumps]
  rw [hdumps] at hn ⊢
  obtain ⟨n, rfl⟩ : ∃ m, n = m + 1 := exists_of_length_le hn rfl
  obtain ⟨hquoted, hscan⟩ := scanString_dumpsString hs hn rest
  rw [hquoted]
  simp only [scanValue]
  rw [hscan, Option.map_some, Value.joined]

/-- Arrays are read back if their items are. -/
theorem reads_array {items : List Value} (hform : ∀ item ∈ items, WellFormed item)
    (hreads : ∀ item ∈ items, Reads item) : Reads (.array items) := by
  intro n rest _ hn
  cases items with
  | nil =>
    obtain ⟨n, rfl⟩ : ∃ m, n = m + 1 := exists_of_length_le (c := 91) hn rfl
    rfl
  | cons item items =>
    obtain ⟨hf, hfs⟩ := List.forall_mem_cons.mp hform
    obtain ⟨hitem, hitems⟩ := List.forall_mem_cons.mp hreads
    simp only [dumps, List.length_cons, List.length_append] at hn
    obtain ⟨n, rfl⟩ : ∃ m, n = m + 1 := ⟨n - 1, by omega⟩
    -- the first item does not close the array
    obtain ⟨c, t, hhead, -, hopen, -⟩ := dumps_cons hf
    have hskip : skipWs (dumps item ++ (dumpsItems items ++ rest)) =
        c :: (t ++ (dumpsItems items ++ rest)) := by
      rw [skipWs_dumps hf, hhead, List.cons_append]
    have hfirst := hitem n _ (delimited_dumpsItems items rest) (by omega)
    rw [hhead, List.cons_append] at hfirst
    simp only [dumps, List.cons_append, List.append_assoc]
    rw [scanValue_array hopen hskip, hfirst, Option.bind_some]
    dsimp only
    rw [scanItems_dumpsItems hfs hitems (by omega), Option.map_some, Value.joined, joinedItems]

/-- Objects are read back if their fields are. -/
theorem reads_object {fields : List (Str × Value)}
    (hkeys : ∀ field ∈ fields, ∀ c ∈ field.1, c < 0x110000)
    (hform : ∀ field ∈ fields, WellFormed field.2) (hreads : ∀ field ∈ fields, Reads field.2) :
    Reads (.object fields) := by
  intro n rest _ hn
  cases fields with
  | nil =>
    obtain ⟨n, rfl⟩ : ∃ m, n = m + 1 := exists_of_length_le (c := 123) hn rfl
    rfl
  | cons field fields =>
    obtain ⟨key, value⟩ := field
    obtain ⟨hkey, hkeys⟩ := List.forall_mem_cons.mp hkeys
    obtain ⟨hf, hfs⟩ := List.forall_mem_cons.mp hform
    obtain ⟨hvalue, hvalues⟩ := List.forall_mem_cons.mp hreads
    dsimp only at hkey hf hvalue
    have hcolon : (str ": ").length = 2 := rfl
    simp only [dumps, List.length_cons, List.length_append, hcolon] at hn
    obtain ⟨n, rfl⟩ : ∃ m, n = m + 1 := ⟨n - 1, by omega⟩
    simp only [dumps, List.cons_append, List.append_assoc]
    change (scanField n (dumpsString key ++
      (str ": " ++ (dumps value ++ (dumpsFields fields ++ rest))))).bind _ = _
    rw [scanField_dumps hkey hf hvalue (by omega) (delimited_dumpsFields fields rest),
      Option.bind_some]
    dsimp only
    rw [scanFields_dumpsFields hkeys hfs hvalues (by omega), Option.map_some, Value.joined,
      joinedFields]

/-- A value is read back wherever it stands. -/
theorem scanValue_dumps {v : Value} (h : WellFormed v) : Reads v := by
  induction h with
  | null =>
    intro n rest _ hn
    obtain ⟨n, rfl⟩ : ∃ m, n = m + 1 := exists_of_length_le (c := 110) hn rfl
    rfl
  | bool b =>
    intro n rest _ hn
    cases b with
    | false =>
      obtain ⟨n, rfl⟩ : ∃ m, n = m + 1 := exists_of_length_le (c := 102) hn rfl
      rfl
    | true =>
      obtain ⟨n, rfl⟩ : ∃ m, n = m + 1 := exists_of_length_le (c := 116) hn rfl
      rfl
  | number htext => exact reads_number htext
  | string hs => exact reads_string hs
  | array hform ih => exact reads_array hform ih
  | object hkeys hform ih => exact reads_object hkeys hform ih

/-- What is written is read back, with its surrogates joined. -/
theorem loads_dumps_joined {v : Value} (h : WellFormed v) : loads (dumps v) = some v.joined := by
  obtain ⟨c, t, heq, -, -, hc⟩ := dumps_cons h
  have hmark : (dumps v).head? ≠ some 0xFEFF := by
    rw [heq, List.head?_cons, ne_eq, Option.some.injEq]
    exact hc
  have hskip : skipWs (dumps v) = dumps v ++ [] := by
    have := skipWs_dumps h []
    rwa [List.append_nil] at this ⊢
  have hend : Delimited [] := by simp [Delimited]
  rw [loads, if_neg hmark, hskip, scanValue_dumps h _ _ hend (Nat.le_succ _), Option.bind_some]
  rfl

/-- What is written without surrogates is read back. -/
theorem loads_dumps {v : Value} (h : Textual v) : loads (dumps v) = some v := by
  rw [loads_dumps_joined h.wellFormed, h.joined]

/-! ## Fields -/

/-- Joining goes through the fields one by one. -/
theorem joinedFields_eq_map (fields : List (Str × Value)) :
    joinedFields fields = fields.map fun field => (joinSurrogates field.1, field.2.joined) := by
  induction fields with
  | nil => rfl
  | cons field fields ih => rw [joinedFields, ih, List.map_cons]

/-- Joining goes through the items one by one. -/
theorem Value.joined_array (items : List Value) :
    (Value.array items).joined = .array (items.map Value.joined) := by
  rw [Value.joined]
  refine congrArg Value.array ?_
  induction items with
  | nil => rfl
  | cons item items ih => rw [joinedItems, ih, List.map_cons]

/-- A field with an ASCII name is found under it after joining. -/
theorem lookup_map_joined {key : Str} (hkey : ∀ c ∈ key, c < 0x80) (fields : List (Str × Value)) :
    (fields.map fun field => (joinSurrogates field.1, field.2.joined)).lookup key =
      (fields.lookup key).map Value.joined := by
  induction fields with
  | nil => rfl
  | cons field fields ih =>
    obtain ⟨key', value⟩ := field
    have hname : (key == joinSurrogates key') = (key == key') := by
      rw [Bool.eq_iff_iff, beq_iff_eq, beq_iff_eq, eq_comm, joinSurrogates_eq_iff hkey, eq_comm]
    rw [List.map_cons, List.lookup_cons, List.lookup_cons, ih, hname]
    cases key == key' <;> rfl

/-- A field whose name is ASCII is found again. -/
theorem get?_joined {key : Str} (hkey : ∀ c ∈ key, c < 0x80) (v : Value) :
    v.joined.get? key = (v.get? key).map Value.joined := by
  cases v with
  | object fields =>
    rw [Value.joined, Value.get?, Value.get?, joinedFields_eq_map, ← List.map_reverse,
      lookup_map_joined hkey]
  | _ =>
    rw [Value.joined]
    rfl

end Json
