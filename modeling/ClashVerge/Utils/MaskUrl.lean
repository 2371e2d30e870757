import Mathlib.Algebra.GroupWithZero.Nat
import ClashVerge.Enhance.BindAddress

/-!
# Masking a URL

`mask_url` shows a URL with its query values and its long path segments replaced. A URL is given
here by its parts, each without the characters that end it; on its text the function computes
exactly the hidden form of the parts.
-/

namespace ClashVerge.Utils

open ClashVerge.Enhance

/-- The position of the first match of the pattern. -/
def find (pattern : List Char) : List Char → Option Nat
  | [] => none
  | char :: rest =>
    if pattern.isPrefixOf (char :: rest) then some 0 else (find pattern rest).map (· + 1)

/-- What is written in the place of a secret. -/
def stars : List Char := ['*', '*', '*']

def byteLen (text : List Char) : Nat := (text.map Char.utf8Size).sum

def maskSegment (segment : List Char) : List Char := if byteLen segment > 16 then stars else segment

/-- A query parameter keeps its name. -/
def maskParam (param : List Char) : List Char :=
  match param.findIdx? (· == '=') with
  | some equals => param.take equals ++ '=' :: stars
  | none => param

/-- `host_end` in `mask_url`. -/
def hostEnd (pathPart : List Char) : Nat :=
  match find "://".toList pathPart with
  | none => pathPart.length
  | some schemeEnd =>
    match (pathPart.drop (schemeEnd + 3)).findIdx? (· == '/') with
    | some slash => schemeEnd + 3 + slash
    | none => pathPart.length

/-- `mask_url` on what comes before the question mark. -/
def maskPathPart (pathPart : List Char) : List Char :=
  let path := pathPart.drop (hostEnd pathPart)
  let schemeAndHost := pathPart.take (hostEnd pathPart)
  if path.isEmpty then schemeAndHost
  else schemeAndHost ++ ['/'].intercalate ((path.splitOn '/').map maskSegment)

/-- `mask_url` on what comes behind the question mark. -/
def maskQueryPart (query : List Char) : List Char :=
  ['&'].intercalate ((query.splitOn '&').map maskParam)

def maskUrl (url : List Char) : List Char :=
  match url.findIdx? (· == '?') with
  | some position => maskPathPart (url.take position) ++ '?' :: maskQueryPart (url.drop (position + 1))
  | none => maskPathPart url

/-! ## The parts of a URL -/

structure Segment where
  text : List Char
  clean : ∀ char ∈ text, char ≠ '/' ∧ char ≠ '?' ∧ isWhitespace char = false

/-- A query parameter, with a value if it has an equals sign. -/
structure Param where
  name : List Char
  value : Option (List Char)
  nameClean : ∀ char ∈ name, char ≠ '&' ∧ char ≠ '=' ∧ isWhitespace char = false
  valueClean : ∀ text, value = some text → ∀ char ∈ text, char ≠ '&' ∧ isWhitespace char = false

/-- A URL of one of the two schemes. Without parameters there is no question mark. -/
structure Url where
  secure : Bool
  authority : Segment
  segments : List Segment
  query : List Param

@[ext] theorem Segment.ext {first second : Segment} (same : first.text = second.text) :
    first = second := by
  cases first
  cases second
  cases same
  rfl

@[ext] theorem Param.ext {first second : Param} (name : first.name = second.name)
    (value : first.value = second.value) : first = second := by
  cases first
  cases second
  cases name
  cases value
  rfl

def Param.text (param : Param) : List Char :=
  match param.value with
  | none => param.name
  | some value => param.name ++ '=' :: value

def pathText (segments : List Segment) : List Char :=
  segments.flatMap fun segment => '/' :: segment.text

def queryText : List Param → List Char
  | [] => []
  | param :: rest => '?' :: param.text ++ rest.flatMap fun later => '&' :: later.text

namespace Url

variable (url : Url)

def scheme : List Char := if url.secure then "https://".toList else "http://".toList

def text : List Char :=
  url.scheme ++ url.authority.text ++ pathText url.segments ++ queryText url.query

end Url

/-! ## Hiding the parts -/

theorem stars_clean : ∀ char ∈ stars, char = '*' := by simp [stars]

def Segment.hide (segment : Segment) : Segment where
  text := maskSegment segment.text
  clean := by
    unfold maskSegment
    split
    · intro char member
      rw [stars_clean char member]
      decide
    · exact segment.clean

def Param.hide (param : Param) : Param where
  name := param.name
  value := param.value.map fun _ => stars
  nameClean := param.nameClean
  valueClean := by
    intro text hidden char member
    obtain ⟨value, -, rfl⟩ := Option.map_eq_some_iff.mp hidden
    rw [stars_clean char member]
    decide

/-- The URL with every query value and every long path segment replaced. -/
def Url.hide (url : Url) : Url where
  secure := url.secure
  authority := url.authority
  segments := url.segments.map Segment.hide
  query := url.query.map Param.hide

/-! ## The function on the text of a URL -/

theorem intercalate_cons_eq (separator : Char) (first : List Char) (rest : List (List Char)) :
    [separator].intercalate (first :: rest) =
      first ++ rest.flatMap fun later => separator :: later := by
  induction rest generalizing first with
  | nil => simp [List.intercalate]
  | cons second others ih =>
    have step := ih second
    simp only [List.intercalate, List.intersperse_cons_cons, List.flatten_cons, List.flatMap_cons] at step ⊢
    rw [step]
    simp

theorem pathText_eq (segments : List Segment) :
    ['/'].intercalate ([] :: segments.map Segment.text) = pathText segments := by
  rw [intercalate_cons_eq, List.flatMap_map]
  rfl

theorem queryText_eq (param : Param) (rest : List Param) :
    queryText (param :: rest) = '?' :: ['&'].intercalate ((param :: rest).map Param.text) := by
  rw [List.map_cons, intercalate_cons_eq, List.flatMap_map]
  rfl

theorem maskSegment_nil : maskSegment [] = [] := by
  simp [maskSegment, byteLen]

theorem maskParam_text (param : Param) : maskParam param.text = param.hide.text := by
  have noEquals : param.name.findIdx? (· == '=') = none := by
    rw [List.findIdx?_eq_none_iff]
    intro char member
    simpa using (param.nameClean char member).2.1
  cases value : param.value with
  | none => simp [maskParam, Param.text, Param.hide, value, noEquals]
  | some text =>
    simp [maskParam, Param.text, Param.hide, value, List.findIdx?_append, noEquals,
      List.findIdx?_cons]

theorem question_not_mem (url : Url) :
    '?' ∉ url.scheme ++ url.authority.text ++ pathText url.segments := by
  have scheme : '?' ∉ url.scheme := by
    unfold Url.scheme
    split <;> decide
  have authority : '?' ∉ url.authority.text := fun member =>
    (url.authority.clean _ member).2.1 rfl
  have path : '?' ∉ pathText url.segments := by
    simp only [pathText, List.mem_flatMap, List.mem_cons, not_exists, not_and, not_or]
    exact fun segment _ => ⟨by decide, fun member => (segment.clean _ member).2.1 rfl⟩
  simp [scheme, authority, path]

theorem hostEnd_eq (url : Url) :
    hostEnd (url.scheme ++ url.authority.text ++ pathText url.segments) =
      (url.scheme ++ url.authority.text).length := by
  have noSlash : url.authority.text.findIdx? (· == '/') = none := by
    rw [List.findIdx?_eq_none_iff]
    intro char member
    simpa using (url.authority.clean char member).1
  have slash : (url.authority.text ++ pathText url.segments).findIdx? (· == '/') =
      if url.segments = [] then none else some url.authority.text.length := by
    rw [List.findIdx?_append, noSlash]
    cases url.segments with
    | nil => simp [pathText]
    | cons segment rest => simp [pathText, List.findIdx?_cons]
  cases secure : url.secure with
  | true =>
    have schemeEnd : find "://".toList (url.scheme ++ url.authority.text ++
        pathText url.segments) = some 5 := by
      simp [Url.scheme, secure, find]
    have behind : (url.scheme ++ url.authority.text ++ pathText url.segments).drop 8 =
        url.authority.text ++ pathText url.segments := by
      simp [Url.scheme, secure]
    simp only [hostEnd, schemeEnd, behind, slash]
    by_cases empty : url.segments = []
    · simp [empty, pathText]
    · simp only [empty, if_false, Url.scheme, secure, if_true, List.length_append]
      rfl
  | false =>
    have schemeEnd : find "://".toList (url.scheme ++ url.authority.text ++
        pathText url.segments) = some 4 := by
      simp [Url.scheme, secure, find]
    have behind : (url.scheme ++ url.authority.text ++ pathText url.segments).drop 7 =
        url.authority.text ++ pathText url.segments := by
      simp [Url.scheme, secure]
    simp only [hostEnd, schemeEnd, behind, slash]
    by_cases empty : url.segments = []
    · simp [empty, pathText]
    · simp only [empty, if_false, Url.scheme, secure, Bool.false_eq_true, List.length_append]
      rfl

theorem maskPath (segments : List Segment) :
    ['/'].intercalate (((pathText segments).splitOn '/').map maskSegment) =
      pathText (segments.map Segment.hide) := by
  rw [← pathText_eq, List.splitOn_intercalate '/' ?_ (by simp), List.map_cons, maskSegment_nil,
    ← pathText_eq, List.map_map, List.map_map]
  · rfl
  · intro piece member
    rw [List.mem_cons, List.mem_map] at member
    obtain rfl | ⟨segment, -, rfl⟩ := member
    · simp
    · exact fun slash => (segment.clean _ slash).1 rfl

theorem maskPathPart_text (url : Url) :
    maskPathPart (url.scheme ++ url.authority.text ++ pathText url.segments) =
      url.scheme ++ url.authority.text ++ pathText (url.segments.map Segment.hide) := by
  simp only [maskPathPart, hostEnd_eq, List.drop_left, List.take_left, maskPath]
  cases url.segments with
  | nil | cons segment rest => simp [pathText]

theorem maskQueryPart_text (param : Param) (rest : List Param) :
    '?' :: maskQueryPart (['&'].intercalate ((param :: rest).map Param.text)) =
      queryText ((param :: rest).map Param.hide) := by
  rw [maskQueryPart, List.splitOn_intercalate '&' ?_ (by simp), List.map_map,
    List.map_cons (f := Param.hide), queryText_eq, ← List.map_cons, List.map_map]
  · congr 3
    funext param
    exact maskParam_text param
  · intro piece member
    obtain ⟨param, -, rfl⟩ := List.mem_map.mp member
    unfold Param.text
    cases value : param.value with
    | none => exact fun ampersand => (param.nameClean _ ampersand).1 rfl
    | some text =>
      have name : '&' ∉ param.name := fun ampersand => (param.nameClean _ ampersand).1 rfl
      have value_ : '&' ∉ text := fun ampersand => (param.valueClean _ value _ ampersand).1 rfl
      simp [name, value_]

theorem maskUrl_text (url : Url) : maskUrl url.text = url.hide.text := by
  have noQuestion : (url.scheme ++ url.authority.text ++ pathText url.segments).findIdx?
      (· == '?') = none := by
    rw [List.findIdx?_eq_none_iff]
    intro char member
    have different : char ≠ '?' := by
      rintro rfl
      exact question_not_mem url member
    simpa using different
  cases query : url.query with
  | nil =>
    have plain : url.text = url.scheme ++ url.authority.text ++ pathText url.segments := by
      rw [Url.text, query, queryText, List.append_nil]
    rw [maskUrl, plain, noQuestion]
    simp only [maskPathPart_text]
    rw [Url.text, Url.hide, query, List.map_nil, queryText, List.append_nil]
    rfl
  | cons param rest =>
    have questioned : url.text = (url.scheme ++ url.authority.text ++ pathText url.segments) ++
        '?' :: ['&'].intercalate ((param :: rest).map Param.text) := by
      rw [Url.text, query, queryText_eq]
    have position : url.text.findIdx? (· == '?') =
        some (url.scheme ++ url.authority.text ++ pathText url.segments).length := by
      rw [questioned, List.findIdx?_append, noQuestion, List.findIdx?_cons]
      simp
    rw [maskUrl, position]
    simp only
    rw [questioned, List.take_left, List.drop_length_add_append, List.drop_succ_cons, List.drop_zero,
      maskPathPart_text, maskQueryPart_text]
    rw [Url.text, Url.hide, query]
    rfl

end ClashVerge.Utils
