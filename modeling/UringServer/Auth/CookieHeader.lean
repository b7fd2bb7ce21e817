import Mathlib.Data.List.DropRight
import UringServer.Auth.AuthMiddleware

/-!
# The `Cookie` field

Cookies are sent as pairs of a name and a value with semicolons between them, and
spaces behind these. `ExtractCookie` finds the first cookie of a name again, whatever
else the values contain.
-/

namespace UringServer.Auth

open UringServer.Semantics UringServer.Web

/-- A cookie that can be told from its neighbours. -/
structure Cookie where
  name : Text
  value : Text
  noEquals : 0x3D ∉ name
  noSpace : 0x20 ∉ name
  noSemicolon : 0x3B ∉ name ∧ 0x3B ∉ value

/-- `name=value`. -/
def Cookie.pair (cookie : Cookie) : Text := cookie.name ++ 0x3D :: cookie.value

/-- The pairs with a semicolon and any number of spaces between them. -/
def writeCookies (spaces : Nat → Nat) : List Cookie → Text
  | [] => []
  | [cookie] => cookie.pair
  | cookie :: cookies =>
    cookie.pair ++ 0x3B ::
      (List.replicate (spaces cookies.length) 0x20 ++ writeCookies spaces cookies)

theorem writeCookies_cons_cons (spaces : Nat → Nat) (cookie next : Cookie)
    (cookies : List Cookie) :
    writeCookies spaces (cookie :: next :: cookies) =
      cookie.pair ++ 0x3B :: (List.replicate (spaces (next :: cookies).length) 0x20 ++
        writeCookies spaces (next :: cookies)) :=
  rfl

namespace Cookie

variable (cookie : Cookie)

theorem pair_ne_nil : cookie.pair ≠ [] := by simp [pair]

theorem semicolon_not_mem_pair : 0x3B ∉ cookie.pair := by
  rw [pair, List.mem_append, List.mem_cons]
  rintro (inName | same | inValue)
  · exact cookie.noSemicolon.1 inName
  · exact absurd same (by decide)
  · exact cookie.noSemicolon.2 inValue

/-- The first equals sign ends the name. -/
theorem findElement_pair : findElement cookie.pair 0x3D 0 = some cookie.name.length :=
  findElement_eq_some.mpr ⟨cookie.name, cookie.value, rfl, cookie.noEquals, rfl⟩

/-- A name has no spaces to be removed at its end. -/
theorem trimmed_name :
    (cookie.name.reverse.dropWhile fun byte => decide (byte = 0x20)).reverse = cookie.name := by
  refine List.rdropWhile_eq_self_iff.mpr fun nonempty space => cookie.noSpace ?_
  rw [← of_decide_eq_true space]
  exact List.getLast_mem nonempty

/-- The spaces in front of a pair are skipped, and no others. -/
theorem dropWhile_spaces (count : Nat) (rest : Text) :
    (List.replicate count 0x20 ++ (cookie.pair ++ rest)).dropWhile
      (fun byte => decide (byte = 0x20)) = cookie.pair ++ rest := by
  refine dropWhile_append_of_boundary ?_ ?_
  · intro byte inside
    exact decide_eq_true (List.eq_of_mem_replicate inside)
  · intro byte first
    refine decide_eq_false fun space => ?_
    subst space
    cases named : cookie.name with
    | nil => simp [pair, named] at first
    | cons head tail =>
      have isHead : head = 0x20 := by simpa [pair, named] using first
      exact cookie.noSpace (by simp [named, isHead])

end Cookie

section Passes

variable (cookie : Cookie) (name : Text) (found : Option Text)

/-- What a pass makes of one pair and the text behind it. -/
theorem cookieStep_of_split {text : Text} (rest : Text) (nonempty : text ≠ [])
    (isPair : (findElement (text.dropWhile (· = 0x20)) 0x3B 0).elim (text.dropWhile (· = 0x20))
      (text.dropWhile (· = 0x20)).take = cookie.pair)
    (isRest : ((findElement (text.dropWhile (· = 0x20)) 0x3B 0).elim [] fun semi =>
      (text.dropWhile (· = 0x20)).drop (semi + 1)) = rest) :
    cookieStep name ⟨text, found⟩ =
      some (if cookie.name = name then ⟨[], some cookie.value⟩ else ⟨rest, found⟩) := by
  have key : ((cookie.pair.take cookie.name.length).reverse.dropWhile
      fun byte => decide (byte = 0x20)).reverse = cookie.name := by
    rw [Cookie.pair, List.take_left]
    exact cookie.trimmed_name
  have value : cookie.pair.drop (cookie.name.length + 1) = cookie.value := by
    rw [Cookie.pair, ← List.drop_drop, List.drop_left]
    rfl
  rw [cookieStep, if_neg nonempty]
  dsimp only
  rw [isPair, isRest, cookie.findElement_pair]
  dsimp only
  rw [key, value]
  split <;> rfl

/-- The last pair ends with the text. -/
theorem cookieStep_last (count : Nat) :
    cookieStep name ⟨List.replicate count 0x20 ++ cookie.pair, found⟩ =
      some ⟨[], if cookie.name = name then some cookie.value else found⟩ := by
  have skipped := cookie.dropWhile_spaces count []
  rw [List.append_nil] at skipped
  have noSemicolon : findElement cookie.pair 0x3B 0 = none :=
    findElement_eq_none.mpr cookie.semicolon_not_mem_pair
  rw [cookieStep_of_split cookie name found []]
  · split <;> rfl
  · simp [cookie.pair_ne_nil]
  · rw [skipped, noSemicolon, Option.elim_none]
  · rw [skipped, noSemicolon, Option.elim_none]

/-- Every other pair ends at its semicolon. -/
theorem cookieStep_more (count : Nat) (rest : Text) :
    cookieStep name ⟨List.replicate count 0x20 ++ (cookie.pair ++ 0x3B :: rest), found⟩ =
      some (if cookie.name = name then ⟨[], some cookie.value⟩ else ⟨rest, found⟩) := by
  have skipped := cookie.dropWhile_spaces count (0x3B :: rest)
  have semicolon : findElement (cookie.pair ++ 0x3B :: rest) 0x3B 0 = some cookie.pair.length :=
    findElement_eq_some.mpr ⟨cookie.pair, rest, rfl, cookie.semicolon_not_mem_pair, rfl⟩
  refine cookieStep_of_split cookie name found rest ?_ ?_ ?_
  · simp
  · rw [skipped, semicolon, Option.elim_some, List.take_left]
  · rw [skipped, semicolon, Option.elim_some, ← List.drop_drop, List.drop_left]
    rfl

end Passes

section Extraction

variable {text rest name : Text}

theorem extractCookie_of_left {found : Option Text}
    (taken : cookieStep name ⟨text, none⟩ = some ⟨[], found⟩) :
    extractCookie text name = found := by
  rw [extractCookie, Loop.run_of_some trivial taken, Loop.run_of_none rfl]

theorem extractCookie_of_more (taken : cookieStep name ⟨text, none⟩ = some ⟨rest, none⟩) :
    extractCookie text name = extractCookie rest name := by
  rw [extractCookie, Loop.run_of_some trivial taken, extractCookie]

/-- The scan stops at the first cookie of the name. -/
theorem extractCookie_spaces (count : Nat) (spaces : Nat → Nat) (name : Text) (cookie : Cookie)
    (cookies : List Cookie) :
    extractCookie (List.replicate count 0x20 ++ writeCookies spaces (cookie :: cookies)) name =
      ((cookie :: cookies).find? fun cookie => cookie.name = name).map Cookie.value := by
  induction cookies generalizing count cookie with
  | nil =>
    refine (extractCookie_of_left (cookieStep_last cookie name none count)).trans ?_
    by_cases same : cookie.name = name
    · simp [same]
    · simp [same]
  | cons next cookies ih =>
    have taken := cookieStep_more cookie name none count
      (List.replicate (spaces (next :: cookies).length) 0x20 ++
        writeCookies spaces (next :: cookies))
    rw [writeCookies_cons_cons]
    by_cases same : cookie.name = name
    · rw [if_pos same] at taken
      rw [extractCookie_of_left taken, List.find?_cons_of_pos (by simpa using same),
        Option.map_some]
    · rw [if_neg same] at taken
      have skipped : ((cookie :: next :: cookies).find? fun cookie => cookie.name = name) =
          (next :: cookies).find? fun cookie => cookie.name = name :=
        List.find?_cons_of_neg (by simpa using same)
      rw [extractCookie_of_more taken, ih, skipped]

end Extraction

theorem extractCookie_writeCookies (spaces : Nat → Nat) (cookies : List Cookie) (name : Text) :
    extractCookie (writeCookies spaces cookies) name =
      (cookies.find? fun cookie => cookie.name = name).map Cookie.value := by
  cases cookies with
  | nil => exact congrArg CookieScan.found (Loop.run_of_none rfl)
  | cons cookie cookies => exact extractCookie_spaces 0 spaces name cookie cookies

/-- For all cookies, separated in any way: a value is extracted exactly if it is that of
the first cookie of the name, and nothing exactly if no cookie has the name. -/
theorem extractCookie_first (cookies : List Cookie) (spaces : Nat → Nat) (name : Text) :
    (∀ value, extractCookie (writeCookies spaces cookies) name = some value ↔
      ∃ before cookie after, cookies = before ++ cookie :: after ∧ cookie.name = name ∧
        cookie.value = value ∧ ∀ earlier ∈ before, earlier.name ≠ name) ∧
    (extractCookie (writeCookies spaces cookies) name = none ↔
      ∀ cookie ∈ cookies, cookie.name ≠ name) := by
  rw [extractCookie_writeCookies]
  constructor
  · intro value
    rw [Option.map_eq_some_iff]
    constructor
    · rintro ⟨cookie, found, isValue⟩
      obtain ⟨named, before, after, whole, others⟩ := List.find?_eq_some_iff_append.mp found
      refine ⟨before, cookie, after, whole, of_decide_eq_true named, isValue, ?_⟩
      intro earlier inside
      simpa using others earlier inside
    · rintro ⟨before, cookie, after, whole, named, isValue, others⟩
      refine ⟨cookie, List.find?_eq_some_iff_append.mpr ?_, isValue⟩
      refine ⟨decide_eq_true named, before, after, whole, ?_⟩
      intro earlier inside
      simpa using others earlier inside
  · rw [Option.map_eq_none_iff, List.find?_eq_none]
    simp

example : extractCookie (writeCookies (fun _ => 1)
    [⟨ascii "token2", ascii "x", by decide, by decide, by decide⟩,
      ⟨ascii "token", ascii " a=b ", by decide, by decide, by decide⟩]) (ascii "token") =
    some (ascii " a=b ") := by decide

/-- `CookieAuth` checks the first cookie of its name. -/
theorem processCookieAuth_writeCookies (codec : JwtCodec) (cookieName : Text)
    {excluded : List Text} (context : Context) {request : HttpRequest} (response : HttpResponse)
    {cookies : List Cookie} {spaces : Nat → Nat} (some_ : cookies ≠ [])
    (included : isExcluded excluded request.path = false)
    (sent : request.getHeader (ascii "Cookie") = writeCookies spaces cookies) :
    processCookieAuth codec cookieName excluded context request response =
      (cookies.find? fun cookie => cookie.name = cookieName).elim
        (refuse response (ascii "token cookie not found"))
        fun cookie => checkToken codec context cookie.value response := by
  have nonempty : writeCookies spaces cookies ≠ [] := by
    obtain ⟨cookie, others, rfl⟩ := List.exists_cons_of_ne_nil some_
    cases others with
    | nil => exact cookie.pair_ne_nil
    | cons next others => simp [writeCookies_cons_cons]
  rw [processCookieAuth, included, if_neg Bool.false_ne_true]
  dsimp only
  rw [sent, if_neg nonempty, extractCookie_writeCookies]
  cases cookies.find? fun cookie => cookie.name = cookieName with
  | none => rfl
  | some cookie => rfl

end UringServer.Auth
