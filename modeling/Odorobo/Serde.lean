import Odorobo.BTreeMap
import Odorobo.Saturating
import Mathlib.Data.List.Nodup
import Mathlib.Data.String.Basic

/-! Derived serialization to JSON trees, by composition. A codec writes values,
reads trees, and names the objects in it that deny unknown keys; its laws are that
a written value is read back and that no tree with an unknown key is read. -/

namespace Odorobo.Serde

/-- A JSON document. An object has its entries in order, repeated keys included. -/
inductive Json where
  | null
  | bool (b : Bool)
  | int (n : Int)
  | float (literal : String)
  | string (s : String)
  | array (items : List Json)
  | object (entries : List (String × Json))

/-- Where a format has objects with a fixed set of keys. -/
inductive Schema where
  | value
  | list (item : Schema)
  | map (item : Schema)
  | struct (fields : List (String × Schema))

/-- The second document is the first with a key that is no field's added to one of
the objects with a fixed set of keys. -/
inductive AddsUnknownKey : Schema → Json → Json → Prop
  | key {fields : List (String × Schema)} {before after : List (String × Json)} {k : String}
      (v : Json) (unknown : k ∉ fields.map Prod.fst) :
      AddsUnknownKey (.struct fields) (.object (before ++ after))
        (.object (before ++ (k, v) :: after))
  | field {fields : List (String × Schema)} {before after : List (String × Json)} {k : String}
      {s : Schema} {v v' : Json} (known : (k, s) ∈ fields) (inside : AddsUnknownKey s v v') :
      AddsUnknownKey (.struct fields) (.object (before ++ (k, v) :: after))
        (.object (before ++ (k, v') :: after))
  | position {fields : List (String × Schema)} {before after : List Json} {k : String} {s : Schema}
      {v v' : Json} (aligned : fields[before.length]? = some (k, s))
      (inside : AddsUnknownKey s v v') :
      AddsUnknownKey (.struct fields) (.array (before ++ v :: after))
        (.array (before ++ v' :: after))
  | item {before after : List Json} {s : Schema} {v v' : Json} (inside : AddsUnknownKey s v v') :
      AddsUnknownKey (.list s) (.array (before ++ v :: after)) (.array (before ++ v' :: after))
  | entry {before after : List (String × Json)} {k : String} {s : Schema} {v v' : Json}
      (inside : AddsUnknownKey s v v') :
      AddsUnknownKey (.map s) (.object (before ++ (k, v) :: after))
        (.object (before ++ (k, v') :: after))

theorem AddsUnknownKey.ne_null {s : Schema} {v v' : Json} (h : AddsUnknownKey s v v') :
    v' ≠ .null := by
  cases h <;> simp

structure Codec (α : Type) where
  schema : Schema
  encode : α → Json
  decode : Json → Option α
  decode_encode : ∀ a, decode (encode a) = some a
  encode_ne_null : ∀ a, encode a ≠ .null
  rejects : ∀ {j j'}, AddsUnknownKey schema j j' → decode j' = none

namespace Codec

variable {α : Type}

/-! Scalars. -/

def string : Codec String where
  schema := .value
  encode s := .string s
  decode
    | .string s => some s
    | _ => none
  decode_encode _ := rfl
  encode_ne_null := by simp
  rejects h := nomatch h

def bool : Codec Bool where
  schema := .value
  encode b := .bool b
  decode
    | .bool b => some b
    | _ => none
  decode_encode _ := rfl
  encode_ne_null := by simp
  rejects h := nomatch h

/-- An unsigned word of modulus `n`. -/
def unsigned (n : Nat) : Codec (Fin n) where
  schema := .value
  encode w := .int w.val
  decode
    | .int (.ofNat x) => if h : x < n then some ⟨x, h⟩ else none
    | _ => none
  decode_encode w := by simp
  encode_ne_null := by simp
  rejects h := nomatch h

def i64 : Codec I64 where
  schema := .value
  encode w := .int w.val
  decode
    | .int x => if h : -2 ^ 63 ≤ x ∧ x < 2 ^ 63 then some ⟨x, h⟩ else none
    | _ => none
  decode_encode w := by simp only [w.property, and_self, ↓reduceDIte, Subtype.coe_eta]
  encode_ne_null := by simp
  rejects h := nomatch h

/-- Values that are written as strings and parsed. -/
def text (print : α → String) (parse : String → Option α) (h : ∀ a, parse (print a) = some a) :
    Codec α where
  schema := .value
  encode a := .string (print a)
  decode
    | .string s => parse s
    | _ => none
  decode_encode := h
  encode_ne_null := by simp
  rejects h := nomatch h

/-! Sequences and maps. -/

theorem mapM_map_eq_some {β γ : Type} {f : β → Option γ} {g : α → β} {h : α → γ} (xs : List α)
    (hread : ∀ a, f (g a) = some (h a)) : (xs.map g).mapM f = some (xs.map h) := by
  induction xs with
  | nil => rfl
  | cons x xs ih => simp [hread, ih]

theorem mapM_eq_none {β : Type} {f : α → Option β} {x : α} (before after : List α) (h : f x = none) :
    (before ++ x :: after).mapM f = none := by
  induction before with
  | nil => simp [h]
  | cons y before ih =>
    rw [List.cons_append, List.mapM_cons, ih]
    cases f y <;> rfl

def list (c : Codec α) : Codec (List α) where
  schema := .list c.schema
  encode xs := .array (xs.map c.encode)
  decode
    | .array items => items.mapM c.decode
    | _ => none
  decode_encode xs := (mapM_map_eq_some xs c.decode_encode).trans (by rw [List.map_id'])
  encode_ne_null := by simp
  rejects
    | .item inside => mapM_eq_none _ _ (c.rejects inside)

def decodeEntry (c : Codec α) (e : String × Json) : Option (String × α) :=
  (c.decode e.2).map fun a => (e.1, a)

theorem mapM_decodeEntry (c : Codec α) (es : List (String × α)) :
    (es.map fun e => (e.1, c.encode e.2)).mapM c.decodeEntry = some es := by
  have hread : ∀ e : String × α, c.decodeEntry (e.1, c.encode e.2) = some (id e) := by
    intro e
    rw [decodeEntry, c.decode_encode, Option.map_some, id]
  rw [mapM_map_eq_some es hread, List.map_id]

theorem decodeEntry_eq_none (c : Codec α) {k : String} {j : Json} (h : c.decode j = none) :
    c.decodeEntry (k, j) = none := by
  rw [decodeEntry, h, Option.map_none]

def map (c : Codec α) : Codec (BTreeMap String α) where
  schema := .map c.schema
  encode m := .object (m.entries.map fun e => (e.1, c.encode e.2))
  decode
    | .object entries => (entries.mapM c.decodeEntry).map BTreeMap.ofEntries
    | _ => none
  decode_encode m := by
    simp only [c.mapM_decodeEntry m.entries, Option.map_some, BTreeMap.ofEntries_entries]
  encode_ne_null := by simp
  rejects
    | .entry inside => congrArg (Option.map BTreeMap.ofEntries)
        (mapM_eq_none _ _ (c.decodeEntry_eq_none (c.rejects inside)))

/-! Externally tagged enumerations. -/

/-- The tag of a variant, and its content. -/
def variant : Json → Option (String × Option Json)
  | .string tag => some (tag, none)
  | .object [(tag, content)] => some (tag, some content)
  | _ => none

/-- A variant without fields has no content, or null. -/
def isUnit : Option Json → Bool
  | none => true
  | some .null => true
  | some _ => false

def unitEnum (variants : List α) (name : α → String)
    (h : ∀ a, variants.find? (fun b => name b == name a) = some a) : Codec α where
  schema := .value
  encode a := .string (name a)
  decode j := do
    let (tag, content) ← variant j
    if isUnit content then variants.find? fun b => name b == tag else none
  decode_encode := h
  encode_ne_null := by simp
  rejects h := nomatch h

end Codec

/-- A field of a structure. It reads the value found under its name, or nothing. -/
structure Field (β : Type) where
  name : String
  schema : Schema
  write : β → Option Json
  read : Option Json → Option β
  read_write : ∀ b, read (write b) = some b
  rejects : ∀ {j j'}, AddsUnknownKey schema j j' → read (some j') = none

namespace Field

variable {β : Type}

def required (name : String) (c : Codec β) : Field β where
  name := name
  schema := c.schema
  write b := some (c.encode b)
  read j := j.bind c.decode
  read_write := c.decode_encode
  rejects := c.rejects

/-- A field that is always written and need not be there. -/
def default (name : String) (c : Codec β) (absent : β) : Field β where
  name := name
  schema := c.schema
  write b := some (c.encode b)
  read
    | none => some absent
    | some j => c.decode j
  read_write := c.decode_encode
  rejects := c.rejects

/-- Null is no value, as is nothing. -/
def readOptional (c : Codec β) : Option Json → Option (Option β)
  | none => some none
  | some .null => some none
  | some j => (c.decode j).map some

theorem readOptional_of_ne_null (c : Codec β) {j : Json} (h : j ≠ .null) :
    readOptional c (some j) = (c.decode j).map some := by
  cases j with
  | null => contradiction
  | _ => rfl

theorem readOptional_encode (c : Codec β) (b : Option β) :
    readOptional c (b.map c.encode) = some b := by
  cases b with
  | none => rfl
  | some b =>
    rw [Option.map_some, readOptional_of_ne_null c (c.encode_ne_null b), c.decode_encode,
      Option.map_some]

theorem readOptional_eq_none (c : Codec β) {j j' : Json} (h : AddsUnknownKey c.schema j j') :
    readOptional c (some j') = none := by
  rw [readOptional_of_ne_null c h.ne_null, c.rejects h, Option.map_none]

/-- A field that is written when it has a value. -/
def optional (name : String) (c : Codec β) : Field (Option β) where
  name := name
  schema := c.schema
  write b := b.map c.encode
  read := readOptional c
  read_write := readOptional_encode c
  rejects := readOptional_eq_none c

end Field

/-- The fields of a structure, in order. -/
inductive Fields : Type → Type 1 where
  | nil : Fields Unit
  | cons {β γ : Type} (f : Field β) (fs : Fields γ) : Fields (β × γ)

namespace Fields

variable {α : Type}

def schemas {α : Type} : Fields α → List (String × Schema)
  | nil => []
  | cons f fs => (f.name, f.schema) :: fs.schemas

def names (fs : Fields α) : List String := fs.schemas.map Prod.fst

def write {α : Type} : Fields α → α → List (String × Json)
  | nil, _ => []
  | cons f fs, (b, rest) => (f.write b).toList.map (fun j => (f.name, j)) ++ fs.write rest

/-- Read each field by its name. -/
def readObject {α : Type} : Fields α → (String → Option Json) → Option α
  | nil, _ => some ()
  | cons f fs, found => do
    let b ← f.read (found f.name)
    let rest ← fs.readObject found
    some (b, rest)

/-- Read each field by its position; fields past the end are absent. -/
def readArray {α : Type} : Fields α → List Json → Option α
  | nil, items => if items.isEmpty then some () else none
  | cons f fs, items => do
    let b ← f.read items.head?
    let rest ← fs.readArray items.tail
    some (b, rest)

/-- An object has each field at most once, and no unknown key if these are denied. -/
def accepts (fs : Fields α) (deny : Bool) (entries : List (String × Json)) : Prop :=
  ((entries.map Prod.fst).filter fs.names.contains).Nodup ∧
    (deny = true → ∀ e ∈ entries, fs.names.contains e.1 = true)

instance (fs : Fields α) (deny : Bool) (entries : List (String × Json)) :
    Decidable (fs.accepts deny entries) := inferInstanceAs (Decidable (_ ∧ _))

def read (fs : Fields α) (deny : Bool) : Json → Option α
  | .object entries =>
    if fs.accepts deny entries then fs.readObject fun name => entries.lookup name else none
  | .array items => fs.readArray items
  | _ => none

@[simp] theorem names_cons {β γ : Type} (f : Field β) (fs : Fields γ) :
    (cons f fs).names = f.name :: fs.names := rfl

theorem write_names (fs : Fields α) (a : α) : ((fs.write a).map Prod.fst).Sublist fs.names := by
  induction fs with
  | nil => exact .slnil
  | cons f fs ih =>
    obtain ⟨b, rest⟩ := a
    have hrest := ih rest
    rw [write, List.map_append, names_cons]
    cases f.write b with
    | none => exact hrest.cons f.name
    | some j => exact hrest.cons_cons f.name

theorem accepts_write {fs : Fields α} (distinct : fs.names.Nodup) (deny : Bool) (a : α) :
    fs.accepts deny (fs.write a) := by
  have hnames := fs.write_names a
  refine ⟨(hnames.nodup distinct).filter _, ?_⟩
  intro _ e he
  exact List.contains_iff_mem.mpr (hnames.subset (List.mem_map_of_mem he))

theorem readObject_congr {fs : Fields α} {found found' : String → Option Json}
    (h : ∀ name ∈ fs.names, found name = found' name) :
    fs.readObject found = fs.readObject found' := by
  induction fs with
  | nil => rfl
  | cons f fs ih =>
    have hfirst := h f.name List.mem_cons_self
    have hrest := ih fun name hname => h name (List.mem_cons_of_mem _ hname)
    rw [readObject, readObject, hfirst, hrest]

theorem lookup_cons_of_ne {name k : String} {j : Json} {entries : List (String × Json)}
    (h : name ≠ k) : ((k, j) :: entries).lookup name = entries.lookup name := by
  rw [List.lookup_cons, beq_false_of_ne h]

theorem lookup_write_of_not_mem {fs : Fields α} {name : String} (h : name ∉ fs.names) (a : α) :
    (fs.write a).lookup name = none := by
  rw [List.lookup_eq_none_iff]
  intro e he
  have hmem := (fs.write_names a).subset (List.mem_map_of_mem he)
  rw [bne_iff_ne]
  intro heq
  exact h (heq ▸ hmem)

theorem readObject_write {fs : Fields α} (distinct : fs.names.Nodup) (a : α) :
    fs.readObject (fun name => (fs.write a).lookup name) = some a := by
  induction fs with
  | nil => rfl
  | cons f fs ih =>
    obtain ⟨b, rest⟩ := a
    obtain ⟨hnew, hdistinct⟩ := List.nodup_cons.mp distinct
    have hfirst : (write (cons f fs) (b, rest)).lookup f.name = f.write b := by
      cases hb : f.write b with
      | none => simpa [write, hb] using lookup_write_of_not_mem hnew rest
      | some j => simp [write, hb]
    have hlater : ∀ name ∈ fs.names,
        (write (cons f fs) (b, rest)).lookup name = (fs.write rest).lookup name := by
      intro name hname
      have hne : name ≠ f.name := fun heq => hnew (heq ▸ hname)
      cases hb : f.write b with
      | none => simp [write, hb]
      | some j => simpa [write, hb] using lookup_cons_of_ne hne
    rw [readObject, hfirst, f.read_write, readObject_congr hlater, ih hdistinct]
    rfl

theorem read_write {fs : Fields α} (distinct : fs.names.Nodup) (deny : Bool) (a : α) :
    fs.read deny (.object (fs.write a)) = some a := by
  rw [read, if_pos (accepts_write distinct deny a), readObject_write distinct]

/-! No field reads a value that has an unknown key in it. -/

theorem readObject_eq_none {fs : Fields α} {found : String → Option Json} {k : String} {s : Schema}
    {v v' : Json} (known : (k, s) ∈ fs.schemas) (hfound : found k = some v')
    (inside : AddsUnknownKey s v v') : fs.readObject found = none := by
  induction fs with
  | nil => simp [schemas] at known
  | cons f fs ih =>
    rw [schemas, List.mem_cons] at known
    rw [readObject]
    cases known with
    | inl hfirst =>
      obtain ⟨rfl, rfl⟩ := Prod.mk.inj hfirst
      rw [hfound, f.rejects inside]
      rfl
    | inr hrest =>
      rw [ih hrest]
      cases f.read (found f.name) <;> rfl

theorem readArray_eq_none {fs : Fields α} {before : List Json} (after : List Json) {k : String}
    {s : Schema} {v v' : Json} (aligned : fs.schemas[before.length]? = some (k, s))
    (inside : AddsUnknownKey s v v') : fs.readArray (before ++ v' :: after) = none := by
  induction fs generalizing before with
  | nil => simp [schemas] at aligned
  | cons f fs ih =>
    cases before with
    | nil =>
      obtain ⟨_, rfl⟩ := Prod.mk.inj (Option.some.inj aligned)
      rw [readArray, List.nil_append, List.head?_cons, f.rejects inside]
      rfl
    | cons j before =>
      rw [readArray, List.cons_append, List.tail_cons, ih aligned]
      cases f.read (j :: (before ++ v' :: after)).head? <;> rfl

/-- A repeated key is found where it stands first, but no field is repeated. -/
theorem lookup_of_accepts {fs : Fields α} {deny : Bool} {before after : List (String × Json)}
    {k : String} {v : Json} (h : fs.accepts deny (before ++ (k, v) :: after))
    (known : k ∈ fs.names) :
    (before ++ (k, v) :: after).lookup k = some v := by
  rw [List.lookup_eq_some_iff]
  refine ⟨before, after, rfl, ?_⟩
  intro e he
  rw [bne_iff_ne]
  rintro rfl
  have hnodup := h.1
  rw [List.map_append, List.filter_append] at hnodup
  have hknown := List.contains_iff_mem.mpr known
  exact List.disjoint_of_nodup_append hnodup
    (List.mem_filter.mpr ⟨List.mem_map_of_mem he, hknown⟩)
    (List.mem_filter.mpr ⟨List.mem_cons_self, hknown⟩)

theorem read_eq_none {fs : Fields α} {j j' : Json} (h : AddsUnknownKey (.struct fs.schemas) j j') :
    fs.read true j' = none := by
  cases h with
  | key v unknown =>
    refine if_neg fun haccepts => unknown ?_
    exact List.contains_iff_mem.mp (haccepts.2 rfl _ (List.mem_append_right _ List.mem_cons_self))
  | field known inside =>
    rw [read]
    split
    · next haccepts =>
      exact readObject_eq_none known (lookup_of_accepts haccepts (List.mem_map_of_mem known)) inside
    · rfl
  | position aligned inside => exact readArray_eq_none _ aligned inside

end Fields

/-- A structure that denies unknown fields, by the tuple of its fields. -/
def Codec.struct {α β : Type} (fs : Fields β) (distinct : fs.names.Nodup) (make : β → α)
    (parts : α → β) (make_parts : ∀ a, make (parts a) = a) : Codec α where
  schema := .struct fs.schemas
  encode a := .object (fs.write (parts a))
  decode j := (fs.read true j).map make
  decode_encode a := by rw [Fields.read_write distinct, Option.map_some, make_parts]
  encode_ne_null := by simp
  rejects h := by rw [Fields.read_eq_none h, Option.map_none]

end Odorobo.Serde
