import Mathlib.Data.Bool.AllAny
import CodexSdk.Error
import CodexSdk.Text

/-!
# Bearer tokens and websocket URLs

`transport/ws.rs`.  A bearer token may travel over `wss://`, and over plain `ws://` to the machine
the client runs on.  `websocketUrlAllowsAuthToken` decides which of the two a URL is by cutting the
host out of its text with a chain of splits.

`Url` is a URL in its parts, each of them free to contain the separators of the others wherever
the grammar of URLs lets it.  `Url.allows_auth_token_iff` says that the splits find the host of
every such URL, and `token_needs_protected_url` what follows for the request that is built.
-/

set_option autoImplicit false

namespace CodexSdk

open Text

/-! ## The source -/

def isAuthorityEnd (c : Char) : Bool := ['/', '?', '#'].contains c

/-- The host of an authority: past the last `@`, up to the closing bracket or the colon. -/
def hostOf (authority : List Char) : List Char :=
  let hostport := match rsplitOnce '@' authority with
    | some (_, hostport) => hostport
    | none => authority
  match hostport with
  | '[' :: rest => firstSegment (· == ']') rest
  | hostport => firstSegment (· == ':') hostport

/-- Bearer auth is only allowed for `wss://` or loopback `ws://` endpoints. -/
def websocketUrlAllowsAuthToken (url : String) : Bool :=
  let lower := toAsciiLowercase (trim url.toList)
  if "wss://".toList.isPrefixOf lower then
    true
  else if !"ws://".toList.isPrefixOf lower then
    false
  else
    let authority := firstSegment isAuthorityEnd (lower.drop 5)
    ["127.0.0.1".toList, "localhost".toList, "::1".toList].contains (hostOf authority)

/-- The request type of the `http` crate and what is used of it: reading a URL, making a header
value, and a header map that gives back what was put into it. -/
structure Http where
  Request : Type
  HeaderValue : Type
  intoClientRequest (url : String) : Except String Request
  headerValue (text : String) : Except String HeaderValue
  insertHeader (request : Request) (name : String) (value : HeaderValue) : Request
  header (request : Request) (name : String) : Option HeaderValue
  header_insertHeader (request : Request) (name : String) (value : HeaderValue) :
    header (insertHeader request name value) name = some value

def authorization : String := "authorization"

def buildWsRequest (http : Http) (url : String) (authToken : Option String) :
    Except ClientError http.Request := do
  if authToken.isSome && !websocketUrlAllowsAuthToken url then
    throw (.config "websocket auth tokens require `wss://` or a loopback `ws://` URL")
  let request ← (http.intoClientRequest url).mapError fun err =>
    .config s!"invalid websocket request for `{url}`: {err}"
  match authToken with
  | some token =>
    let value ← (http.headerValue s!"Bearer {token}").mapError fun err =>
      .config s!"invalid websocket auth token: {err}"
    return http.insertHeader request authorization value
  | none => return request

/-! ## URLs in their parts -/

/-- The characters that separate the parts of a URL. -/
def isGenDelim (c : Char) : Bool := [':', '/', '?', '#', '[', ']', '@'].contains c

def isSchemeChar (c : Char) : Bool := c.isAlphanum || ['+', '-', '.'].contains c

/-- A host as it stands in a URL.  A registered name may be any text without separators and blanks,
and a dotted quad is one of them.  Of the address between brackets all that is used is that it has
a colon and none of the other separators. -/
inductive Host
  | name (text : List Char)
      (plain : ∀ c ∈ text, isGenDelim c = false ∧ isWhitespace c = false)
  | ipv6 (address : List Char) (colon : ':' ∈ address)
      (plain : ∀ c ∈ address, c ≠ ':' → isGenDelim c = false ∧ isWhitespace c = false)

def Host.text : Host → List Char
  | name text _ => text
  | ipv6 address _ _ => '[' :: address ++ [']']

/-- `scheme://[userinfo@]host[:port][/path][?query][#fragment]`. -/
structure Url where
  scheme : List Char
  userinfo : Option (List Char)
  host : Host
  port : Option (List Char)
  path : Option (List Char)
  query : Option (List Char)
  fragment : Option (List Char)
  scheme_plain : ∀ c ∈ scheme, isSchemeChar c = true
  userinfo_plain : ∀ text ∈ userinfo, ∀ c ∈ text, isAuthorityEnd c = false
  port_plain : ∀ text ∈ port, ∀ c ∈ text, c.isDigit = true

/-- A part that may be missing, with the separator in front of it. -/
def optionalPart (sep : Char) : Option (List Char) → List Char
  | some text => sep :: text
  | none => []

namespace Url

def userinfoText (u : Url) : List Char :=
  match u.userinfo with
  | some text => text ++ ['@']
  | none => []

def hostport (u : Url) : List Char := u.host.text ++ optionalPart ':' u.port

def authority (u : Url) : List Char := u.userinfoText ++ u.hostport

/-- Everything after the authority. -/
def tail (u : Url) : List Char :=
  optionalPart '/' u.path ++ optionalPart '?' u.query ++ optionalPart '#' u.fragment

def chars (u : Url) : List Char := u.scheme ++ "://".toList ++ u.authority ++ u.tail

def text (u : Url) : String := String.ofList u.chars

/-- A token sent there is encrypted, or does not leave the machine. -/
def Protected (u : Url) : Prop :=
  toAsciiLowercase u.scheme = "wss".toList ∨
    toAsciiLowercase u.scheme = "ws".toList ∧
      toAsciiLowercase u.host.text ∈ ["127.0.0.1".toList, "localhost".toList, "[::1]".toList]

end Url

/-! ## Characters of the parts -/

/-- Letters and digits are neither separators nor blanks. -/
theorem plain_of_isAlphanum {c : Char} (h : c.isAlphanum = true) :
    isGenDelim c = false ∧ isWhitespace c = false := by
  rw [isAlphanum_iff] at h
  constructor
  · simp only [isGenDelim, List.contains_eq_mem, decide_eq_false_iff_not, List.mem_cons,
      List.not_mem_nil, or_false]
    rintro (rfl | rfl | rfl | rfl | rfl | rfl | rfl) <;> simp at h
  · simp only [isWhitespace, Bool.or_eq_false_iff, Bool.and_eq_false_iff, decide_eq_false_iff_not,
      beq_eq_false_iff_ne]
    omega

theorem plain_of_isSchemeChar {c : Char} (h : isSchemeChar c = true) :
    isGenDelim c = false ∧ isWhitespace c = false := by
  rw [isSchemeChar, Bool.or_eq_true] at h
  rcases h with h | h
  · exact plain_of_isAlphanum h
  · simp only [List.contains_eq_mem, decide_eq_true_eq, List.mem_cons, List.not_mem_nil,
      or_false] at h
    rcases h with rfl | rfl | rfl <;> decide

/-- A character that is no separator is none of the separators. -/
theorem ne_of_isGenDelim {c d : Char} (hc : isGenDelim c = false) (hd : isGenDelim d = true) :
    d ≠ c := by
  rintro rfl
  rw [hc] at hd
  exact Bool.false_ne_true hd

theorem isAuthorityEnd_of_isGenDelim {c : Char} (h : isGenDelim c = false) :
    isAuthorityEnd c = false := by
  simp only [isGenDelim, isAuthorityEnd, List.contains_eq_mem, decide_eq_false_iff_not,
    List.mem_cons, List.not_mem_nil, or_false, not_or] at h ⊢
  exact ⟨h.2.1, h.2.2.1, h.2.2.2.1⟩

/-- Lowering moves no end of an authority. -/
theorem isAuthorityEnd_toLower (c : Char) : isAuthorityEnd c.toLower = isAuthorityEnd c := by
  simp only [isAuthorityEnd, List.contains_eq_mem, List.mem_cons, List.not_mem_nil, or_false,
    toLower_eq_iff (c := c) (d := '/') rfl, toLower_eq_iff (c := c) (d := '?') rfl,
    toLower_eq_iff (c := c) (d := '#') rfl]

/-! ## The host of an authority without user information -/

theorem hostOf_bracket {rest : List Char} (hat : '@' ∉ '[' :: rest) :
    hostOf (toAsciiLowercase ('[' :: rest)) = toAsciiLowercase (firstSegment (· == ']') rest) := by
  have hat' : '@' ∉ toAsciiLowercase ('[' :: rest) := by rwa [mem_toAsciiLowercase rfl]
  have hclose : ∀ c : Char, (c.toLower == ']') = (c == ']') := fun c => by
    rw [Bool.eq_iff_iff, beq_iff_eq, beq_iff_eq, toLower_eq_iff rfl]
  rw [hostOf, rsplitOnce_eq_none hat']
  exact firstSegment_toAsciiLowercase hclose rest

theorem hostOf_bare {hostport : List Char} (hat : '@' ∉ hostport)
    (hopen : ∀ c ∈ hostport.head?, c ≠ '[') :
    hostOf (toAsciiLowercase hostport) = toAsciiLowercase (firstSegment (· == ':') hostport) := by
  have hat' : '@' ∉ toAsciiLowercase hostport := by rwa [mem_toAsciiLowercase rfl]
  have hcolon : ∀ c : Char, (c.toLower == ':') = (c == ':') := fun c => by
    rw [Bool.eq_iff_iff, beq_iff_eq, beq_iff_eq, toLower_eq_iff rfl]
  have hopen' : ∀ rest, toAsciiLowercase hostport ≠ '[' :: rest := by
    intro rest heq
    obtain ⟨c, _, rfl, hc, -⟩ := List.map_eq_cons_iff.1 heq
    exact hopen c rfl ((toLower_eq_iff rfl).1 hc)
  rw [hostOf, rsplitOnce_eq_none hat', ← firstSegment_toAsciiLowercase hcolon]
  dsimp only
  split
  · rename_i heq
    exact absurd heq (hopen' _)
  · rfl

namespace Url

variable (u : Url)

/-! ## The parts survive the splits -/

theorem colon_not_mem_scheme : ':' ∉ u.scheme := fun h =>
  ne_of_isGenDelim (plain_of_isSchemeChar (u.scheme_plain _ h)).1 rfl rfl

/-- A character of the host or the port is the colon, a bracket, or plain. -/
theorem mem_hostport {c : Char} (h : c ∈ u.hostport) :
    c = ':' ∨ c = '[' ∨ c = ']' ∨ isGenDelim c = false ∧ isWhitespace c = false := by
  rw [hostport, List.mem_append] at h
  rcases h with h | h
  · cases hhost : u.host with
    | name text plain =>
      rw [hhost] at h
      exact .inr (.inr (.inr (plain c h)))
    | ipv6 address colon plain =>
      rw [hhost, Host.text] at h
      by_cases hc : c = ':'
      · exact .inl hc
      · simp only [List.cons_append, List.mem_cons, List.mem_append, List.not_mem_nil,
          or_false] at h
        rcases h with h | h | h
        · exact .inr (.inl h)
        · exact .inr (.inr (.inr (plain c h hc)))
        · exact .inr (.inr (.inl h))
  · cases hport : u.port with
    | none => rw [hport] at h; cases h
    | some digits =>
      rw [hport, optionalPart, List.mem_cons] at h
      rcases h with h | h
      · exact .inl h
      · have hdigit := u.port_plain digits hport c h
        exact .inr (.inr (.inr (plain_of_isAlphanum (by simp [Char.isAlphanum, hdigit]))))

theorem visible_hostport {c : Char} (h : c ∈ u.hostport) : isWhitespace c = false := by
  rcases u.mem_hostport h with rfl | rfl | rfl | h
  · rfl
  · rfl
  · rfl
  · exact h.2

theorem at_not_mem_hostport : '@' ∉ u.hostport := by
  intro h
  rcases u.mem_hostport h with h | h | h | h
  · cases h
  · cases h
  · cases h
  · cases h.1

theorem isAuthorityEnd_authority {c : Char} (h : c ∈ u.authority) : isAuthorityEnd c = false := by
  rw [authority, List.mem_append] at h
  rcases h with h | h
  · rw [userinfoText] at h
    split at h
    · rename_i text htext
      rw [List.mem_append, List.mem_singleton] at h
      rcases h with h | rfl
      · exact u.userinfo_plain text htext c h
      · rfl
    · cases h
  · rcases u.mem_hostport h with rfl | rfl | rfl | h
    · rfl
    · rfl
    · rfl
    · exact isAuthorityEnd_of_isGenDelim h.1

/-- What follows the authority starts with one of its ends. -/
theorem isAuthorityEnd_tail {c : Char} (h : c ∈ u.tail.head?) : isAuthorityEnd c = true := by
  rw [tail] at h
  cases hpath : u.path <;> cases hquery : u.query <;> cases hfragment : u.fragment <;>
    simp [hpath, hquery, hfragment, optionalPart] at h <;> subst h <;> rfl

/-- The last character before the tail is visible. -/
theorem last_visible : ∃ init c, u.scheme ++ "://".toList ++ u.authority = init ++ [c] ∧
    isWhitespace c = false := by
  rcases List.eq_nil_or_concat u.hostport with h | ⟨init, c, h⟩
  · rw [authority, h, List.append_nil, userinfoText]
    split
    · exact ⟨_, '@', (List.append_assoc _ _ _).symm, rfl⟩
    · exact ⟨u.scheme ++ [':', '/'], '/', by simp, rfl⟩
  · refine ⟨u.scheme ++ "://".toList ++ u.userinfoText ++ init, c, ?_, ?_⟩
    · rw [authority, h, List.concat_eq_append]
      simp only [List.append_assoc]
    · exact u.visible_hostport (h ▸ by simp)

/-- **Trimming** reaches no further than the path, the query or the fragment. -/
theorem trim_chars : trim u.chars =
    u.scheme ++ "://".toList ++ u.authority ++ u.tail.rdropWhile isWhitespace := by
  refine trim_append (fun c hc => ?_) u.last_visible
  cases hscheme : u.scheme with
  | nil => rw [hscheme] at hc; cases hc; rfl
  | cons x rest =>
    rw [hscheme] at hc
    cases hc
    exact (plain_of_isSchemeChar (u.scheme_plain _ (hscheme ▸ List.mem_cons_self))).2

/-! ## The host that is cut out -/

theorem hostOf_of_userinfo (before : List Char) {hostport : List Char} (h : '@' ∉ hostport) :
    hostOf (before ++ '@' :: hostport) = hostOf hostport := by
  rw [hostOf, rsplitOnce_append before h, hostOf, rsplitOnce_eq_none h]

/-- What stands before the last `@` of the authority does not reach the host. -/
theorem hostOf_authority :
    hostOf (toAsciiLowercase u.authority) = hostOf (toAsciiLowercase u.hostport) := by
  have hat : '@' ∉ toAsciiLowercase u.hostport := by
    rw [mem_toAsciiLowercase rfl]
    exact u.at_not_mem_hostport
  rw [authority, toAsciiLowercase_append, userinfoText]
  split
  · rw [toAsciiLowercase_append, List.append_assoc]
    exact hostOf_of_userinfo _ hat
  · rfl

/-- The lowered host, without the brackets of an address. -/
def bareHost (u : Url) : List Char :=
  match u.host with
  | .name text _ => toAsciiLowercase text
  | .ipv6 address _ _ => toAsciiLowercase address

theorem hostOf_hostport : hostOf (toAsciiLowercase u.hostport) = u.bareHost := by
  have hat := u.at_not_mem_hostport
  have hport : ∀ c ∈ (optionalPart ':' u.port).head?, c = ':' := by
    intro c hc
    cases hu : u.port with
    | none => rw [hu] at hc; cases hc
    | some digits => rw [hu] at hc; cases hc; rfl
  rw [hostport] at hat ⊢
  rw [bareHost]
  cases hhost : u.host with
  | name text plain =>
    rw [hhost] at hat
    have hcolon : ∀ c ∈ text, (c == ':') = false := fun c hc =>
      beq_false_of_ne (ne_of_isGenDelim (plain c hc).1 rfl).symm
    -- A name does not start with a bracket, and an empty one is followed by a colon at most.
    have hopen : ∀ c ∈ (text ++ optionalPart ':' u.port).head?, c ≠ '[' := by
      rintro c hc rfl
      rw [List.head?_append, Option.mem_def, Option.or_eq_some_iff] at hc
      rcases hc with hc | ⟨-, hc⟩
      · exact ne_of_isGenDelim (plain _ (List.mem_of_mem_head? hc)).1 rfl rfl
      · exact absurd (hport _ hc) (by decide)
    exact (hostOf_bare hat hopen).trans (congrArg toAsciiLowercase
      (firstSegment_append hcolon fun c hc => by rw [hport c hc]; rfl))
  | ipv6 address colon plain =>
    have htext : (Host.ipv6 address colon plain).text ++ optionalPart ':' u.port =
        '[' :: (address ++ (']' :: optionalPart ':' u.port)) := by simp [Host.text]
    rw [hhost, htext] at hat
    have hclose : ∀ c ∈ address, (c == ']') = false := by
      refine fun c hc => beq_false_of_ne ?_
      rintro rfl
      exact ne_of_isGenDelim (plain _ hc (by decide)).1 rfl rfl
    rw [htext]
    exact (hostOf_bracket hat).trans (congrArg toAsciiLowercase
      (firstSegment_append hclose fun c hc => by cases hc; rfl))

/-- The host cut out is one of the three loopback hosts exactly when the host of the URL is, an
address being written in brackets. -/
theorem bareHost_mem_iff :
    u.bareHost ∈ ["127.0.0.1".toList, "localhost".toList, "::1".toList] ↔
      toAsciiLowercase u.host.text ∈
        ["127.0.0.1".toList, "localhost".toList, "[::1]".toList] := by
  rw [bareHost]
  cases u.host with
  | name text plain =>
    have hno : ∀ d, isGenDelim d = true → d.isAlpha = false → d ∉ toAsciiLowercase text := by
      intro d hd hal hmem
      rw [mem_toAsciiLowercase hal] at hmem
      exact ne_of_isGenDelim (plain _ hmem).1 hd rfl
    have hcolon : toAsciiLowercase text ≠ "::1".toList := fun h =>
      hno ':' rfl rfl (h ▸ by decide)
    have hbracket : toAsciiLowercase text ≠ "[::1]".toList := fun h =>
      hno ':' rfl rfl (h ▸ by decide)
    simp only [List.mem_cons, List.not_mem_nil, or_false, Host.text, hcolon, hbracket]
  | ipv6 address colon plain =>
    have hcolon : ':' ∈ toAsciiLowercase address := (mem_toAsciiLowercase rfl).2 colon
    have hquad : toAsciiLowercase address ≠ "127.0.0.1".toList := fun h => by
      rw [h] at hcolon
      exact absurd hcolon (by decide)
    have hlocal : toAsciiLowercase address ≠ "localhost".toList := fun h => by
      rw [h] at hcolon
      exact absurd hcolon (by decide)
    have htext : toAsciiLowercase (Host.ipv6 address colon plain).text
        = '[' :: (toAsciiLowercase address ++ [']']) := by
      simp [Host.text, toAsciiLowercase]
    have hloop : "[::1]".toList = '[' :: ("::1".toList ++ [']']) := rfl
    simp only [List.mem_cons, List.not_mem_nil, or_false, hquad, hlocal, htext, hloop, false_or,
      List.cons.injEq, true_and, List.append_cancel_right_eq]
    simp

/-! ## The decision -/

theorem toList_text : u.text.toList = u.chars := String.toList_ofList

/-- The text the scanner works on. -/
theorem lower_text : toAsciiLowercase (trim u.text.toList) =
    toAsciiLowercase u.scheme ++ ':' :: ('/' :: '/' :: (toAsciiLowercase u.authority ++
      toAsciiLowercase (u.tail.rdropWhile isWhitespace))) := by
  rw [toList_text, trim_chars]
  simp [toAsciiLowercase]

/-- A prefix test against `name://` is a test of the scheme. -/
theorem isPrefixOf_lower_iff {name : List Char} (hname : ':' ∉ name) :
    (name ++ "://".toList).isPrefixOf (toAsciiLowercase (trim u.text.toList)) = true ↔
      toAsciiLowercase u.scheme = name := by
  have hscheme : ':' ∉ toAsciiLowercase u.scheme := by
    rw [mem_toAsciiLowercase rfl]
    exact u.colon_not_mem_scheme
  have hsep : "://".toList = [':', '/', '/'] := rfl
  rw [List.isPrefixOf_iff_prefix, lower_text, hsep]
  constructor
  · rintro ⟨rest, h⟩
    rw [List.append_assoc, List.cons_append] at h
    exact ((append_cons_inj hname hscheme).1 h).1.symm
  · rintro rfl
    exact ⟨_, by rw [List.append_assoc, List.cons_append]; rfl⟩

/-- The authority is cut off where the path, the query or the fragment starts. -/
theorem firstSegment_lower :
    firstSegment isAuthorityEnd (toAsciiLowercase u.authority ++
      toAsciiLowercase (u.tail.rdropWhile isWhitespace)) = toAsciiLowercase u.authority := by
  rw [← toAsciiLowercase_append, firstSegment_toAsciiLowercase isAuthorityEnd_toLower]
  refine congrArg toAsciiLowercase
    (firstSegment_append (fun c hc => u.isAuthorityEnd_authority hc) fun c hc => ?_)
  obtain ⟨rest, hrest⟩ := List.rdropWhile_prefix isWhitespace u.tail
  exact u.isAuthorityEnd_tail (by rw [← hrest, List.head?_append, hc]; rfl)

/-- **The splits find the host**, whatever the other parts of the URL contain. -/
theorem allows_auth_token_iff : websocketUrlAllowsAuthToken u.text = true ↔ u.Protected := by
  have hwss := u.isPrefixOf_lower_iff (show ':' ∉ "wss".toList by decide)
  have hws := u.isPrefixOf_lower_iff (show ':' ∉ "ws".toList by decide)
  have htls : "wss://".toList = "wss".toList ++ "://".toList := rfl
  have hplain : "ws://".toList = "ws".toList ++ "://".toList := rfl
  rw [websocketUrlAllowsAuthToken, Protected, htls, hplain]
  by_cases h : toAsciiLowercase u.scheme = "wss".toList
  · rw [if_pos (hwss.2 h)]
    exact iff_of_true rfl (.inl h)
  · rw [if_neg fun h' => h (hwss.1 h')]
    by_cases h' : toAsciiLowercase u.scheme = "ws".toList
    · have hdrop : (toAsciiLowercase (trim u.text.toList)).drop 5 = toAsciiLowercase u.authority ++
          toAsciiLowercase (u.tail.rdropWhile isWhitespace) := by
        rw [lower_text, h']
        rfl
      rw [hws.2 h', Bool.not_true, if_neg Bool.false_ne_true, hdrop, firstSegment_lower]
      show List.contains _ (hostOf (toAsciiLowercase u.authority)) = true ↔ _
      rw [hostOf_authority, hostOf_hostport, List.contains_iff_mem, bareHost_mem_iff]
      exact ⟨fun hhost => .inr ⟨h', hhost⟩, fun hcase => (hcase.resolve_left h).2⟩
    · rw [if_pos (by rw [Bool.not_eq_true', Bool.eq_false_iff]; exact fun h'' => h' (hws.1 h''))]
      exact iff_of_false Bool.false_ne_true fun hcase => hcase.elim h fun hcase => h' hcase.1

end Url

/-! ## The request -/

variable (http : Http)

/-- Asked to carry a token, the request is refused before anything else is looked at, or carries
it. -/
theorem buildWsRequest_token (url : String) (token : String) :
    (websocketUrlAllowsAuthToken url = false →
      ∃ message, buildWsRequest http url (some token) = .error (.config message)) ∧
    ∀ request, buildWsRequest http url (some token) = .ok request →
      websocketUrlAllowsAuthToken url = true ∧ ∃ value,
        http.headerValue s!"Bearer {token}" = .ok value ∧
        http.header request authorization = some value := by
  unfold buildWsRequest
  cases hallows : websocketUrlAllowsAuthToken url with
  | false =>
    constructor
    · exact fun _ => ⟨_, rfl⟩
    · intro request h
      cases h
  | true =>
    constructor
    · intro h
      cases h
    intro request h
    refine ⟨rfl, ?_⟩
    cases hinto : http.intoClientRequest url with
    | error err => simp only [hinto] at h; cases h
    | ok plain =>
      cases hvalue : http.headerValue s!"Bearer {token}" with
      | error err => simp only [hinto, hvalue] at h; cases h
      | ok value =>
        simp only [hinto, hvalue] at h
        cases h
        exact ⟨value, rfl, http.header_insertHeader plain authorization value⟩

/-- **A bearer token never goes to a plaintext remote host.**  The scanner accepts exactly the
protected URLs; a request built with a token carries it and goes to one of these, and for every
other URL there is an error instead of a request. -/
theorem token_needs_protected_url (u : Url) (token : String) :
    (websocketUrlAllowsAuthToken u.text = true ↔ u.Protected) ∧
    (∀ request, buildWsRequest http u.text (some token) = .ok request →
      u.Protected ∧ ∃ value, http.headerValue s!"Bearer {token}" = .ok value ∧
        http.header request authorization = some value) ∧
    (¬ u.Protected →
      ∃ message, buildWsRequest http u.text (some token) = .error (.config message)) := by
  have hiff := u.allows_auth_token_iff
  have hbuild := buildWsRequest_token http u.text token
  refine ⟨hiff, fun request h => ?_, fun h => hbuild.1 ?_⟩
  · obtain ⟨hallows, hvalue⟩ := hbuild.2 request h
    exact ⟨hiff.1 hallows, hvalue⟩
  · rw [Bool.eq_false_iff]
    exact fun h' => h (hiff.1 h')

/-- The requests of the crate as far as they are used here: the URL, and the headers by name. -/
def plainHttp : Http where
  Request := String × (String → Option String)
  HeaderValue := String
  intoClientRequest url := .ok (url, fun _ => none)
  headerValue text :=
    if text.toList.all fun c => c == '\t' || (32 ≤ c.toNat && c.toNat < 127) then .ok text
    else .error "failed to parse header value"
  insertHeader request name value := (request.1, Function.update request.2 name (some value))
  header request name := request.2 name
  header_insertHeader _ _ _ := Function.update_self ..

/-- `ws://a:b@[::1]:4222/?ws://evil.example`. -/
def loopbackUrl : Url where
  scheme := "ws".toList
  userinfo := some "a:b".toList
  host := .ipv6 "::1".toList (by decide) (List.all_iff_forall_prop.1 rfl)
  port := some "4222".toList
  path := some []
  query := some "ws://evil.example".toList
  fragment := none
  scheme_plain := List.all_iff_forall_prop.1 rfl
  userinfo_plain := by
    rintro _ ⟨⟩
    exact List.all_iff_forall_prop.1 rfl
  port_plain := by simp

/-- `ws://localhost@evil.example/x@localhost`. -/
def remoteUrl : Url where
  scheme := "ws".toList
  userinfo := some "localhost".toList
  host := .name "evil.example".toList (List.all_iff_forall_prop.1 rfl)
  port := none
  path := some "x@localhost".toList
  query := none
  fragment := none
  scheme_plain := List.all_iff_forall_prop.1 rfl
  userinfo_plain := by
    rintro _ ⟨⟩
    exact List.all_iff_forall_prop.1 rfl
  port_plain := by simp

/-- The token is sent to this machine, and not to the other. -/
theorem token_needs_protected_url_two :
    (∃ request, buildWsRequest plainHttp loopbackUrl.text (some "secret") = .ok request ∧
      loopbackUrl.Protected ∧ ∃ value, plainHttp.headerValue "Bearer secret" = .ok value ∧
        plainHttp.header request authorization = some value) ∧
    ∃ message, buildWsRequest plainHttp remoteUrl.text (some "secret") =
      .error (.config message) := by
  constructor
  · have hbuild : ∃ request,
        buildWsRequest plainHttp loopbackUrl.text (some "secret") = .ok request := ⟨_, rfl⟩
    obtain ⟨request, hrequest⟩ := hbuild
    obtain ⟨hprotected, value, hvalue, hheader⟩ :=
      (token_needs_protected_url plainHttp loopbackUrl "secret").2.1 request hrequest
    exact ⟨request, hrequest, hprotected, value, hvalue, hheader⟩
  · refine (token_needs_protected_url plainHttp remoteUrl "secret").2.2 ?_
    rintro (hscheme | ⟨-, hhost⟩)
    · exact absurd hscheme (by decide)
    · exact absurd hhost (by decide)

/-- An `@` in the path, `localhost` in the userinfo: the host is what stands between them. -/
example : websocketUrlAllowsAuthToken "ws://localhost@evil.example/x@localhost" = false ∧
    websocketUrlAllowsAuthToken "WS://a:b@[::1]:80/?q=ws://evil.example" = true := by
  constructor <;> rfl

end CodexSdk
