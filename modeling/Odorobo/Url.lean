import Mathlib.Data.List.TakeWhile
import Odorobo.Text

/-! URLs by their components, and the URL crate as far as the driver uses it. The
crate is a parameter of everything built on it; `Lawful` is what is relied on. -/

namespace Odorobo

structure Url where
  scheme : String
  username : String
  password : Option String
  hostStr : Option String
  port : Option (Fin (2 ^ 16))
  path : String
  query : Option String
  fragment : Option String
  deriving DecidableEq

/-- The slash-separated segments of a path that begins with a slash. -/
def Url.pathSegments (url : Url) : Option (List String) :=
  (Text.stripPrefix "/" url.path).map (Text.split '/')

/-- Everything but the query. -/
def Url.withoutQuery (url : Url) : Url := { url with query := none }

structure UrlCrate where
  parse : String → Option Url
  asStr : Url → String
  /-- `query_pairs_mut().append_pair(name, value).finish()` -/
  appendPair : Url → String → String → Url
  /-- The local path of a file URL, as lossy text. -/
  toFilePath : Url → Option String

/-- URLs that the crate gives out. -/
inductive UrlCrate.Made (crate : UrlCrate) : Url → Prop where
  | parsed (s : String) (url : Url) (h : crate.parse s = some url) : Made crate url
  | appended (url : Url) (name value : String) (h : Made crate url) :
      Made crate (crate.appendPair url name value)

structure UrlCrate.Lawful (crate : UrlCrate) : Prop where
  parse_absolute : ∀ path, Text.isAbsolute path = true → crate.parse path = none
  appendPair_query : ∀ url name value,
    (crate.appendPair url name value).withoutQuery = url.withoutQuery
  parse_asStr : ∀ url, crate.Made url → crate.parse (crate.asStr url) = some url

theorem Url.scheme_of_withoutQuery {url url' : Url} (h : url.withoutQuery = url'.withoutQuery) :
    url.scheme = url'.scheme := by
  have hscheme : url.withoutQuery.scheme = url'.withoutQuery.scheme := by rw [h]
  exact hscheme

/-! A crate for URLs of the three storage schemes with no user, port or fragment,
and pairs that need no escapes. -/

namespace PlainUrl

def inHost (c : Char) : Bool := c != '/' && c != '?'

def inPath (c : Char) : Bool := c != '?'

def queryOf : List Char → Option String
  | [] => none
  | _ :: cs => some (.ofList cs)

def afterScheme (scheme : String) (cs : List Char) : Url where
  scheme := scheme
  username := ""
  password := none
  hostStr := some (.ofList (cs.takeWhile inHost))
  port := none
  path := .ofList ((cs.dropWhile inHost).takeWhile inPath)
  query := queryOf ((cs.dropWhile inHost).dropWhile inPath)
  fragment := none

def parseChars : List Char → Option Url
  | 'f' :: 'i' :: 'l' :: 'e' :: ':' :: '/' :: '/' :: cs => some (afterScheme "file" cs)
  | 'r' :: 'b' :: 'd' :: ':' :: '/' :: '/' :: cs => some (afterScheme "rbd" cs)
  | 'i' :: 's' :: 'c' :: 's' :: 'i' :: ':' :: '/' :: '/' :: cs => some (afterScheme "iscsi" cs)
  | _ => none

def queryText : Option String → List Char
  | none => []
  | some query => '?' :: query.toList

def rest (url : Url) : List Char :=
  (url.hostStr.getD "").toList ++ (url.path.toList ++ queryText url.query)

def crate : UrlCrate where
  parse text := parseChars text.toList
  asStr url := .ofList (url.scheme.toList ++ "://".toList ++ rest url)
  appendPair url name value := { url with query := some (match url.query with
    | none => name ++ "=" ++ value
    | some query => query ++ "&" ++ name ++ "=" ++ value) }
  toFilePath url := some url.path

/-- What `rest` writes is read back. -/
def Readable (url : Url) : Prop :=
  (url.scheme = "file" ∨ url.scheme = "rbd" ∨ url.scheme = "iscsi") ∧
    afterScheme url.scheme (rest url) = url

/-- A list that begins with no character of the part. -/
theorem stops {p : Char → Bool} {cs : List Char} (h : cs.head?.all (fun c => !p c) = true) :
    cs.takeWhile p = [] ∧ cs.dropWhile p = cs := by
  cases cs with
  | nil => exact ⟨rfl, rfl⟩
  | cons c cs =>
    have hc : p c = false := by simpa using h
    simp [hc]

theorem stops_dropWhile (p : Char → Bool) (cs : List Char) :
    (cs.dropWhile p).head?.all (fun c => !p c) = true := by
  induction cs with
  | nil => rfl
  | cons c cs ih =>
    rw [List.dropWhile_cons]
    split
    · exact ih
    · next hc => simpa using hc

theorem stops_queryText {p : Char → Bool} (hp : p '?' = false) (query : Option String) :
    (queryText query).head?.all (fun c => !p c) = true := by
  cases query <;> simp [queryText, hp]

theorem queryOf_queryText (query : Option String) : queryOf (queryText query) = query := by
  cases query <;> simp [queryText, queryOf]

/-- The host ends where the path or the query begins. -/
theorem stops_pathQuery (cs : List Char) (query : Option String) :
    ((cs.dropWhile inHost).takeWhile inPath ++ queryText query).head?.all
      (fun c => !inHost c) = true := by
  have hstart := stops_dropWhile inHost cs
  cases hrest : cs.dropWhile inHost with
  | nil => exact stops_queryText rfl query
  | cons c rest =>
    rw [hrest] at hstart
    rw [List.takeWhile_cons]
    split
    · simpa using hstart
    · exact stops_queryText rfl query

theorem readable_afterScheme {scheme : String} (cs : List Char) (query : Option String)
    (hscheme : scheme = "file" ∨ scheme = "rbd" ∨ scheme = "iscsi") :
    Readable { afterScheme scheme cs with query := query } := by
  refine ⟨hscheme, ?_⟩
  have hhost : ∀ c ∈ cs.takeWhile inHost, inHost c = true := fun c hc => List.mem_takeWhile_imp hc
  have hpath : ∀ c ∈ (cs.dropWhile inHost).takeWhile inPath, inPath c = true := fun c hc =>
    List.mem_takeWhile_imp hc
  obtain ⟨hnohost, hkept⟩ := stops (stops_pathQuery cs query)
  obtain ⟨hnopath, hquery⟩ := stops (stops_queryText rfl query : _ = true) (p := inPath)
  simp only [afterScheme, rest, Option.getD_some, String.toList_ofList,
    List.takeWhile_append_of_pos hhost, List.dropWhile_append_of_pos hhost, hnohost, hkept,
    List.takeWhile_append_of_pos hpath, List.dropWhile_append_of_pos hpath, hnopath, hquery,
    List.append_nil, queryOf_queryText]

theorem readable_of_parseChars {cs : List Char} {url : Url} (h : parseChars cs = some url) :
    Readable url := by
  unfold parseChars at h
  split at h
  · rw [← Option.some.inj h]
    exact readable_afterScheme _ _ (Or.inl rfl)
  · rw [← Option.some.inj h]
    exact readable_afterScheme _ _ (Or.inr (Or.inl rfl))
  · rw [← Option.some.inj h]
    exact readable_afterScheme _ _ (Or.inr (Or.inr rfl))
  · simp at h

theorem readable_of_made {url : Url} (h : crate.Made url) : Readable url := by
  induction h with
  | parsed text url h => exact readable_of_parseChars h
  | appended url name value _ ih =>
    obtain ⟨hscheme, hrest⟩ := ih
    rw [← hrest]
    exact readable_afterScheme (rest url) _ hscheme

theorem parseChars_scheme {scheme : String} (cs : List Char)
    (h : scheme = "file" ∨ scheme = "rbd" ∨ scheme = "iscsi") :
    parseChars (scheme.toList ++ "://".toList ++ cs) = some (afterScheme scheme cs) := by
  obtain rfl | rfl | rfl := h
  · rfl
  · rfl
  · rfl

theorem lawful : crate.Lawful where
  parse_absolute path h := by
    unfold Text.isAbsolute Text.startsWith at h
    change parseChars path.toList = none
    cases hchars : path.toList with
    | nil => rfl
    | cons c cs =>
      rw [hchars] at h
      obtain rfl : '/' = c := by simpa using h
      rfl
  appendPair_query url name value := rfl
  parse_asStr url h := by
    obtain ⟨hscheme, hrest⟩ := readable_of_made h
    change parseChars (String.ofList _).toList = _
    rw [String.toList_ofList, parseChars_scheme _ hscheme, hrest]

end PlainUrl

end Odorobo
