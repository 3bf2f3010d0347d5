/-
# `Urb.Url` — the URL of the message broker

`URL::parse` takes the text that a framework is given as its master apart:

    urb://  [ha://]  [credentials @]  servers  [/path]

The prefixes are taken off from the left, the path from the right, one `/` after
the other, and the credentials end at the last `@`.  Without `ha://` there may be
one server only, so that a comma anywhere is an error.

For parts that do not contain the separators this is the grammar above, read from
left to right (`parse_text`).
-/
import Mathlib.Data.List.DropRight
import Urb.Basis.Text

namespace Urb

open List

/-- `liburb::URL`. -/
structure URL where
  servers : String
  credentials : String := ""
  path : String
  ha : Bool
  deriving Repr, DecidableEq

namespace URL

/-! ## The parser -/

def isSpace (c : Char) : Bool := c = ' ' || c = '\t' || c = '\n' || c = '\r'

def trim (s : List Char) : List Char := (s.dropWhile isSpace).rdropWhile isSpace

def ofBody (ha : Bool) (s : List Char) : URL :=
  let (s, path) := s.peel '/' []
  let path := if path = [] then ['/'] else path
  match s.splitLast '@' with
  | some (credentials, servers) =>
    { credentials := String.ofList credentials, servers := String.ofList servers
      path := String.ofList path, ha := ha }
  | none => { servers := String.ofList s, path := String.ofList path, ha := ha }

def parse (url : String) : Except String URL :=
  let s := trim url.toList
  if "urb://".toList.isPrefixOf s then
    let s := s.drop 6
    if "ha://".toList.isPrefixOf s then .ok (ofBody true (s.drop 5))
    else if ',' ∈ s then .error "Expecting a single server when HA is not specified"
    else .ok (ofBody false s)
  else .error "Expecting 'urb://' at the beginning of the URL"

/-! ## The grammar -/

def body (credentials : Option String) (servers path : String) : List Char :=
  credentials.elim [] (fun c => c.toList ++ ['@']) ++ (servers.toList ++ path.toList)

def text (ha : Bool) (credentials : Option String) (servers path : String) : String :=
  "urb://" ++ (if ha then "ha://" else "") ++ String.ofList (body credentials servers path)

variable {ha : Bool} {credentials : Option String} {servers path : String}

lemma trim_of_no_space {l : List Char} (h : ∀ c ∈ l, isSpace c = false) : trim l = l := by
  have hdrop : ∀ {l : List Char}, (∀ c ∈ l, isSpace c = false) → l.dropWhile isSpace = l := by
    intro l hl
    cases l with
    | nil => rfl
    | cons c l => rw [dropWhile_cons_of_neg (by simp [hl c mem_cons_self])]
  rw [trim, hdrop h, List.rdropWhile, hdrop fun c hc => h c (mem_reverse.mp hc), reverse_reverse]

lemma not_space_of_all {l : List Char} (h : l.all (fun c => !isSpace c)) :
    ∀ c ∈ l, isSpace c = false := fun c hc => by
  simpa using all_eq_true.mp h c hc

lemma parse_of_text (h : ∀ c ∈ body credentials servers path, isSpace c = false) :
    parse (text ha credentials servers path) =
      let s := (if ha then "ha://".toList else []) ++ body credentials servers path
      if "ha://".toList.isPrefixOf s then .ok (ofBody true (s.drop 5))
      else if ',' ∈ s then .error "Expecting a single server when HA is not specified"
      else .ok (ofBody false s) := by
  have htext : (text ha credentials servers path).toList =
      "urb://".toList ++ ((if ha then "ha://".toList else []) ++ body credentials servers path) := by
    simp only [text, String.toList_append, String.toList_ofList, append_assoc]
    cases ha <;> rfl
  have hspace : ∀ c ∈ (text ha credentials servers path).toList, isSpace c = false := by
    have hprefixes : ∀ c ∈ "urb://".toList ++ "ha://".toList, isSpace c = false :=
      not_space_of_all (by decide)
    intro c hc
    rw [htext] at hc
    rcases mem_append.mp hc with hc | hc
    · exact hprefixes c (mem_append_left _ hc)
    · rcases mem_append.mp hc with hc | hc
      · cases ha with
        | true => exact hprefixes c (mem_append_right _ hc)
        | false => cases hc
      · exact h c hc
  have hstart := isPrefixOf_iff_prefix.mpr (prefix_append "urb://".toList
    ((if ha then "ha://".toList else []) ++ body credentials servers path))
  rw [parse, trim_of_no_space hspace, htext, if_pos hstart]
  rfl

lemma ofBody_body (hc : ∀ c ∈ credentials, '/' ∉ c.toList) (hs : '/' ∉ servers.toList)
    (hat : '@' ∉ servers.toList) (hp : path.toList = [] ∨ ∃ rest, path.toList = '/' :: rest) :
    ofBody ha (body credentials servers path) =
      { credentials := credentials.getD "", servers := servers
        path := if path = "" then "/" else path, ha := ha } := by
  have hpeel : (body credentials servers path).peel '/' [] =
      (credentials.elim [] (fun c => c.toList ++ ['@']) ++ servers.toList, path.toList) := by
    have hfront : ∀ x ∈ credentials.elim [] (fun c => c.toList ++ ['@']) ++ servers.toList,
        decide (x ≠ '/') := by
      intro x hx
      refine decide_eq_true fun he => ?_
      subst he
      rcases mem_append.mp hx with hx | hx
      · cases credentials with
        | none => cases hx
        | some c =>
          rcases mem_append.mp hx with hx | hx
          · exact hc c rfl hx
          · exact absurd (mem_singleton.mp hx) (by decide)
      · exact hs hx
    rw [peel_eq, body, ← append_assoc, takeWhile_append_of_pos hfront, dropWhile_append_of_pos hfront]
    rcases hp with hp | ⟨rest, hp⟩
    · simp [hp]
    · simp [hp]
  have hpath : String.ofList (if path.toList = [] then ['/'] else path.toList) =
      if path = "" then "/" else path := by
    by_cases he : path = ""
    · subst he
      rfl
    · rw [if_neg he, if_neg (mt String.toList_eq_nil_iff.mp he), String.ofList_toList]
  simp only [ofBody, hpeel, hpath]
  cases credentials with
  | none => simp [splitLast_of_not_mem hat]
  | some c => simp [splitLast_append_cons c.toList hat]

theorem parse_text (ha : Bool) (credentials : Option String) (servers path : String)
    (hspace : ∀ t ∈ [credentials.getD "", servers, path], ∀ c ∈ t.toList, isSpace c = false)
    (hc : ∀ c ∈ credentials, '/' ∉ c.toList) (hs : '/' ∉ servers.toList ∧ '@' ∉ servers.toList)
    (hp : path.toList = [] ∨ ∃ rest, path.toList = '/' :: rest)
    (hha : ha = false → ¬ "ha://".toList <+: body credentials servers path) :
    parse (text ha credentials servers path) =
      if ha = false ∧ ∃ t ∈ [credentials.getD "", servers, path], ',' ∈ t.toList then
        .error "Expecting a single server when HA is not specified"
      else .ok { credentials := credentials.getD "", servers := servers
                 path := if path = "" then "/" else path, ha := ha } := by
  have hmem : ∀ c, c ∈ body credentials servers path → c = '@' ∨
      ∃ t ∈ [credentials.getD "", servers, path], c ∈ t.toList := by
    intro c hb
    cases credentials <;> simp [body] at hb ⊢ <;> tauto
  have hbody : ∀ c ∈ body credentials servers path, isSpace c = false := by
    intro c hb
    rcases hmem c hb with rfl | ⟨t, ht, hct⟩
    · rfl
    · exact hspace t ht c hct
  have hcomma : ',' ∈ body credentials servers path ↔
      ∃ t ∈ [credentials.getD "", servers, path], ',' ∈ t.toList := by
    refine ⟨fun hb => (hmem _ hb).resolve_left (by decide), ?_⟩
    cases credentials <;> simp [body]
  rw [parse_of_text hbody]
  cases ha with
  | true =>
    have hstart : "ha://".toList.isPrefixOf ("ha://".toList ++ body credentials servers path) = true :=
      isPrefixOf_iff_prefix.mpr (prefix_append _ _)
    rw [← ofBody_body hc hs.1 hs.2 hp]
    simp only [if_true, hstart, reduceCtorEq, false_and, if_false]
    rfl
  | false =>
    have hno : ¬ "ha://".toList.isPrefixOf (body credentials servers path) = true :=
      mt isPrefixOf_iff_prefix.mp (hha rfl)
    simp only [Bool.false_eq_true, if_false, nil_append, if_neg hno, hcomma, true_and]
    rw [ofBody_body hc hs.1 hs.2 hp]

theorem parse_text_servers :
    parse (text true (some "bob@home:pass") "h1:8080,h2" "/a/b") =
      .ok { credentials := "bob@home:pass", servers := "h1:8080,h2", path := "/a/b", ha := true } :=
  have hspace : ∀ t ∈ ["bob@home:pass", "h1:8080,h2", "/a/b"], t.toList.all (fun c => !isSpace c) = true := by
    decide
  parse_text true (some "bob@home:pass") "h1:8080,h2" "/a/b" (fun t ht => not_space_of_all (hspace t ht))
    (fun _ hc => Option.mem_some.mp hc ▸ by decide) (by decide) (.inr ⟨_, rfl⟩) nofun

end URL

end Urb
