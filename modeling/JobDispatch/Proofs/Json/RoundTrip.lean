import JobDispatch.Proofs.Json.Documents
import JobDispatch.Proofs.Json.Legible

/-!
# Written values are read back

A value whose text is read is the value again, but for its doubles: each of them is read from its
digits.  Two things can keep a text from being read: arrays and objects that are nested too deep, and,
with a reader that is built for it, an object whose least name marks it as the value of a text.

## Main definitions

* `Json.Plain` — no object within a value is marked as the value of a text.
* `Json.doubles` — the doubles within a value.
* `Double.Faithful` — the text of a double is read as the same double.
* `Json.reread` — a value with every double as its text is read.

## Main results

* `Json.plain_of_embeds_eq_false` — without that option of the reader nothing is marked.
* `Document.valueWith?_document` — **the value of a written value, and how deep it may be nested.**
* `Json.reread_eq_self` — faithful doubles leave the value as it is.
-/

namespace JobDispatch

namespace Dictionary

variable {α : Type}

theorem Ascending.tail {a : String} {names : List String} (h : Ascending (a :: names)) :
    Ascending names := by
  cases names with
  | nil => trivial
  | cons b names => exact h.2

/-- The first of ascending names comes before all others. -/
theorem Ascending.lt_of_mem {a b : String} {names : List String} (h : Ascending (a :: names))
    (hb : b ∈ names) : a < b := by
  induction names generalizing a with
  | nil => exact absurd hb List.not_mem_nil
  | cons c names ih =>
    rcases List.mem_cons.mp hb with rfl | hb
    · exact h.1
    · exact String.lt_trans h.1 (ih h.2 hb)

/-- A name that comes behind all others is put there. -/
theorem insert_of_lt {name : String} (value : α) {d : List (String × α)}
    (h : ∀ n ∈ names d, n < name) : insert name value d = d ++ [(name, value)] := by
  induction d with
  | nil => rfl
  | cons f d ih =>
    obtain ⟨n, v⟩ := f
    have hn : n < name := h n List.mem_cons_self
    have hlt : ¬ name < n := String.lt_asymm hn
    have hne : ¬ name = n := by
      rintro rfl
      exact String.lt_irrefl name hn
    rw [insert, if_neg hlt, if_neg hne, ih fun m hm => h m (List.mem_cons_of_mem n hm)]
    rfl

/-- **Values in ascending order of their names are a dictionary already.** -/
theorem ofList_of_ascending {fs : List (String × α)} (h : Ascending (names fs)) : ofList fs = fs := by
  have happend : ∀ d fs : List (String × α), Ascending (names fs) →
      (∀ m ∈ names d, ∀ n ∈ names fs, m < n) →
        fs.foldl (fun d f => insert f.1 f.2 d) d = d ++ fs := by
    intro d fs
    induction fs generalizing d with
    | nil => intro _ _; simp
    | cons f fs ih =>
      obtain ⟨n, v⟩ := f
      intro hfs hd
      have hbehind : ∀ m ∈ names d, m < n := fun m hm => hd m hm n List.mem_cons_self
      rw [List.foldl_cons, insert_of_lt v hbehind, ih]
      · simp
      · exact hfs.tail
      · intro m hm k hk
        have hm : m ∈ names d ∨ m = n := by simpa [names] using hm
        rcases hm with hm | rfl
        · exact hd m hm k (List.mem_cons_of_mem n hk)
        · exact hfs.lt_of_mem hk
  have hall := happend [] fs h (fun _ hm => absurd hm List.not_mem_nil)
  rwa [List.nil_append] at hall

end Dictionary

/-! ### The doubles of a value -/

namespace Double

/-- The text of a double is read as the same double. -/
def Faithful [Json.Dialect] (x : Double) : Prop :=
  Json.ofText? (Json.text (.number (.double x))) = some (.number (.double x))

end Double

namespace Json

mutual

/-- The doubles within a value. -/
def doubles : Json → List Double
  | .number (.double x) => [x]
  | .array items => itemsDoubles items
  | .object fields => fieldsDoubles fields
  | _ => []

/-- The doubles within items. -/
def itemsDoubles : List Json → List Double
  | [] => []
  | v :: vs => doubles v ++ itemsDoubles vs

/-- The doubles within the values of fields. -/
def fieldsDoubles : List (String × Json) → List Double
  | [] => []
  | (_, v) :: fs => doubles v ++ fieldsDoubles fs

end

/-- A number as its text is read. -/
def rereadNumber : JsonNumber → JsonNumber
  | .int i => .int i
  | .double x => x.written.value?.getD (.double x)

mutual

/-- A value with every double as its text is read. -/
def reread : Json → Json
  | .number n => .number (rereadNumber n)
  | .array items => .array (itemsReread items)
  | .object fields => .object (fieldsReread fields)
  | v => v

/-- Items with every double as its text is read. -/
def itemsReread : List Json → List Json
  | [] => []
  | v :: vs => reread v :: itemsReread vs

/-- Fields with every double as its text is read. -/
def fieldsReread : List (String × Json) → List (String × Json)
  | [] => []
  | (name, v) :: fs => (name, reread v) :: fieldsReread fs

end

theorem names_fieldsReread (fs : List (String × Json)) :
    Dictionary.names (fieldsReread fs) = Dictionary.names fs := by
  induction fs with
  | nil => rw [fieldsReread]
  | cons f fs ih =>
    obtain ⟨name, v⟩ := f
    rw [fieldsReread]
    simp only [Dictionary.names, List.map_cons] at ih ⊢
    rw [ih]

/-! ### What a reader makes of a written value -/

section Reading

variable [Dialect]

/-- Whether the first of some fields marks their object as the value of a text for the reader. -/
def IsMarked : List (String × Json) → Prop
  | [] => False
  | (name, _) :: _ => Dialect.embeds = true ∧ name = Document.embeddingName

mutual

/-- No object within a value is marked as the value of a text. -/
def Plain : Json → Prop
  | .array items => ItemsPlain items
  | .object fields => ¬ IsMarked fields ∧ FieldsPlain fields
  | _ => True

/-- The same for items. -/
def ItemsPlain : List Json → Prop
  | [] => True
  | v :: vs => Plain v ∧ ItemsPlain vs

/-- The same for the values of fields. -/
def FieldsPlain : List (String × Json) → Prop
  | [] => True
  | (_, v) :: fs => Plain v ∧ FieldsPlain fs

end

mutual

/-- **For a reader that is not built for it nothing is marked.** -/
theorem plain_of_embeds_eq_false (h : Dialect.embeds = false) : ∀ v : Json, v.Plain
  | .null | .bool _ | .number _ | .string _ => by rw [Plain]; all_goals simp
  | .array vs => by
    rw [Plain]
    exact itemsPlain_of_embeds_eq_false h vs
  | .object fs => by
    rw [Plain]
    refine ⟨fun hmarked => ?_, fieldsPlain_of_embeds_eq_false h fs⟩
    cases fs with
    | nil => exact hmarked
    | cons f fs => exact Bool.false_ne_true (h.symm.trans hmarked.1)

theorem itemsPlain_of_embeds_eq_false (h : Dialect.embeds = false) : ∀ vs : List Json, ItemsPlain vs
  | [] => by rw [ItemsPlain]; trivial
  | v :: vs => by
    rw [ItemsPlain]
    exact ⟨plain_of_embeds_eq_false h v, itemsPlain_of_embeds_eq_false h vs⟩

theorem fieldsPlain_of_embeds_eq_false (h : Dialect.embeds = false) :
    ∀ fs : List (String × Json), FieldsPlain fs
  | [] => by rw [FieldsPlain]; trivial
  | (_, v) :: fs => by
    rw [FieldsPlain]
    exact ⟨plain_of_embeds_eq_false h v, fieldsPlain_of_embeds_eq_false h fs⟩

end

/-- Only a marked object is written as one that stands for the value of a text. -/
theorem isEmbedding_fieldsDocument {fs : List (String × Json)} (h : ¬ IsMarked fs) :
    Document.isEmbedding (fieldsDocument fs) = false := by
  cases fs with
  | nil => rw [fieldsDocument]; rfl
  | cons f fs =>
    obtain ⟨name, v⟩ := f
    rw [fieldsDocument, Document.isEmbedding, decodePieces?_written]
    cases he : Dialect.embeds with
    | false => rfl
    | true =>
      have hne : name.toList ≠ Document.embeddingName.toList := fun e => h ⟨he, String.toList_inj.mp e⟩
      simpa using hne

/-- The number that the text of a number means. -/
theorem valueWith?_numberDocument {f : List Char → Option Json} {room : Nat} {n : JsonNumber}
    (hn : n.WellFormed) :
    Document.valueWith? f room (numberDocument n) = some (.number (rereadNumber n)) := by
  cases n with
  | int i =>
    rw [numberDocument, Document.valueWith?, value?_intWritten hn]
    rfl
  | double x =>
    have hfinite : x.isFinite = true := hn
    obtain ⟨m, hm⟩ := Option.isSome_iff_exists.mp (Double.legible_of_isFinite hfinite)
    rw [numberDocument, if_pos hfinite, Document.valueWith?, rereadNumber, hm]
    rfl

namespace Document

mutual

/-- **The value of a written value**: each double as it is read, provided that arrays and objects are
not nested too deep. -/
theorem valueWith?_document {f : List Char → Option Json} : ∀ (v : Json) (_ : v.WellFormed)
    (_ : v.Plain) (room : Nat),
      valueWith? f room v.document = if v.depth ≤ room then some v.reread else none
  | .null, _, _, room => by rw [document, valueWith?, depth, reread] <;> simp
  | .bool _, _, _, room => by rw [document, valueWith?, depth, reread] <;> simp
  | .number n, hv, _, room => by
    rw [WellFormed] at hv
    rw [document, valueWith?_numberDocument hv, depth, reread]
    all_goals simp
  | .string s, _, _, room => by
    rw [document, valueWith?, decodePieces?_written, depth, reread]
    all_goals simp
  | .array vs, hv, hp, room => by
    rw [WellFormed] at hv
    rw [Plain] at hp
    rw [document, valueWith?, depth, reread]
    cases room with
    | zero => simp
    | succ room =>
      rw [if_neg (by simp), Nat.add_sub_cancel, itemsValue?_document vs hv hp room]
      by_cases hd : itemsDepth vs ≤ room <;> simp [hd]
  | .object fs, hv, hp, room => by
    rw [WellFormed] at hv
    rw [Plain] at hp
    rw [document, valueWith?, depth, reread]
    cases room with
    | zero => simp
    | succ room =>
      have hnames : Dictionary.Ascending (Dictionary.names (fieldsReread fs)) :=
        names_fieldsReread fs ▸ hv.1
      rw [if_neg (by simp), if_neg (by simp [isEmbedding_fieldsDocument hp.1]), Nat.add_sub_cancel,
        fieldsValue?_document fs hv.2 hp.2 room]
      by_cases hd : fieldsDepth fs ≤ room <;>
        simp [hd, ofFields, Dictionary.ofList_of_ascending hnames]

/-- The values of written items. -/
theorem itemsValue?_document {f : List Char → Option Json} : ∀ (vs : List Json)
    (_ : ItemsWellFormed vs) (_ : ItemsPlain vs) (room : Nat),
      itemsValue? f room (itemsDocument vs)
        = if itemsDepth vs ≤ room then some (itemsReread vs) else none
  | [], _, _, room => by simp [itemsDocument, itemsValue?, itemsDepth, itemsReread]
  | v :: vs, hv, hp, room => by
    rw [ItemsWellFormed] at hv
    rw [ItemsPlain] at hp
    rw [itemsDocument, itemsValue?,
      valueWith?_document v hv.1 hp.1 room,
      itemsValue?_document vs hv.2 hp.2 room,
      itemsDepth, itemsReread]
    simp only [Nat.max_le]
    by_cases h : v.depth ≤ room <;> by_cases hs : itemsDepth vs ≤ room <;> simp [h, hs]

/-- The names and values of written fields. -/
theorem fieldsValue?_document {f : List Char → Option Json} : ∀ (fs : List (String × Json))
    (_ : FieldsWellFormed fs) (_ : FieldsPlain fs) (room : Nat), fieldsValue? f room (fieldsDocument fs)
        = if fieldsDepth fs ≤ room then some (fieldsReread fs) else none
  | [], _, _, room => by simp [fieldsDocument, fieldsValue?, fieldsDepth, fieldsReread]
  | (name, v) :: fs, hv, hp, room => by
    rw [FieldsWellFormed] at hv
    rw [FieldsPlain] at hp
    rw [fieldsDocument, fieldsValue?, decodePieces?_written,
      valueWith?_document v hv.1 hp.1 room,
      fieldsValue?_document fs hv.2 hp.2 room,
      fieldsDepth, fieldsReread]
    simp only [Nat.max_le]
    by_cases h : v.depth ≤ room <;> by_cases hs : fieldsDepth fs ≤ room <;> simp [h, hs]

end

end Document

/-! ### Faithful doubles -/

/-- A double is faithful when its digits are read as it. -/
theorem faithful_iff_value?_written {x : Double} (hx : x.isFinite = true) :
    x.Faithful ↔ x.written.value? = some (.double x) := by
  rw [Double.Faithful, ofText?, text, String.toList_ofList, ofChars?_chars, Option.bind_some,
    document, numberDocument, if_pos hx, Document.value?, Document.valueWith?]
  constructor
  · intro h
    obtain ⟨n, hn, he⟩ := Option.map_eq_some_iff.mp h
    rw [hn, Json.number.inj he]
  · intro h
    rw [h, Option.map_some]

mutual

/-- **Faithful doubles leave the value as it is.** -/
theorem reread_eq_self : ∀ (v : Json) (_ : v.WellFormed) (_ : ∀ x ∈ v.doubles, x.Faithful),
    v.reread = v
  | .null, _, _ | .bool _, _, _ | .string _, _, _ => by rw [reread]; all_goals simp
  | .number (.int i), _, _ => by rw [reread, rereadNumber]
  | .number (.double x), hv, hl => by
    have hx : x.Faithful := hl x (by rw [doubles]; exact List.mem_singleton_self x)
    rw [WellFormed] at hv
    rw [reread, rereadNumber, (faithful_iff_value?_written hv).mp hx]
    rfl
  | .array vs, hv, hl => by
    rw [WellFormed] at hv
    rw [doubles] at hl
    rw [reread, itemsReread_eq_self vs hv hl]
  | .object fs, hv, hl => by
    rw [WellFormed] at hv
    rw [doubles] at hl
    rw [reread, fieldsReread_eq_self fs hv.2 hl]

theorem itemsReread_eq_self : ∀ (vs : List Json) (_ : ItemsWellFormed vs)
    (_ : ∀ x ∈ itemsDoubles vs, x.Faithful), itemsReread vs = vs
  | [], _, _ => by rw [itemsReread]
  | v :: vs, hv, hl => by
    rw [ItemsWellFormed] at hv
    rw [itemsDoubles] at hl
    rw [itemsReread, reread_eq_self v hv.1 fun x hx => hl x (List.mem_append_left _ hx),
      itemsReread_eq_self vs hv.2 fun x hx => hl x (List.mem_append_right _ hx)]

theorem fieldsReread_eq_self : ∀ (fs : List (String × Json)) (_ : FieldsWellFormed fs)
    (_ : ∀ x ∈ fieldsDoubles fs, x.Faithful), fieldsReread fs = fs
  | [], _, _ => by rw [fieldsReread]
  | (name, v) :: fs, hv, hl => by
    rw [FieldsWellFormed] at hv
    rw [fieldsDoubles] at hl
    rw [fieldsReread, reread_eq_self v hv.1 fun x hx => hl x (List.mem_append_left _ hx),
      fieldsReread_eq_self fs hv.2 fun x hx => hl x (List.mem_append_right _ hx)]

end

end Reading

end Json

end JobDispatch
