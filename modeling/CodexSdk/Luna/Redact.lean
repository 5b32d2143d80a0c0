import CodexSdk.Text

/-!
# The websocket URL in the report of `luna doctor`

`redact_websocket_url` of `doctor.rs` leaves out the query, the fragment and the user info of a URL
before it is printed.  It looks for them where an escaped URL has them.  `withoutUserinfo_eq_iff`
says what is left of a text, and `independent_iff` for which two user infos, of any characters, the
printed URL is the same whatever the rest is.
-/

set_option autoImplicit false

namespace CodexSdk.Luna

open Text

/-! ## The redaction -/

def isQueryMark (c : Char) : Bool := c = '?' || c = '#'

/-- The authority without user info, and the path. -/
def withoutUserinfo (authorityAndPath : List Char) : List Char :=
  let (authority, path) := match splitOnce '/' authorityAndPath with
    | some (authority, path) => (authority, '/' :: path)
    | none => (authorityAndPath, [])
  let authority := match rsplitOnce '@' authority with
    | some (_, host) => host
    | none => authority
  authority ++ path

/-- `redact_websocket_url`. -/
def redactWebsocketUrl (url : List Char) : List Char :=
  let withoutQuery := firstSegment isQueryMark url
  let (scheme, authorityAndPath) :=
    (splitAfter "://".toList withoutQuery).getD ([], withoutQuery)
  scheme ++ withoutUserinfo authorityAndPath

/-! ## Two user infos -/

/-- A URL without what is secret in it. -/
structure Site where
  scheme : List Char
  host : List Char
  path : List Char
  schemePlain : scheme.any (fun c => c == ':' || isQueryMark c) = false
  plain : (host ++ '/' :: path).any (fun c => c == '@' || isQueryMark c) = false

/-- What follows the user info, up to the query. -/
def Site.hostAndPath (site : Site) : List Char := site.host ++ '/' :: site.path

/-- `scheme://userinfo@host/path?query#fragment`. -/
def Site.url (site : Site) (userinfo query fragment : List Char) : List Char :=
  site.scheme ++ ("://".toList ++ (userinfo ++ '@' :: (site.hostAndPath ++
    '?' :: (query ++ '#' :: fragment))))

/-- The redacted URL is the same with the one user info as with the other, whatever the site, the
queries and the fragments. -/
def Independent (userinfo userinfo' : List Char) : Prop :=
  ∀ (site : Site) (query fragment query' fragment' : List Char),
    redactWebsocketUrl (site.url userinfo query fragment) =
      redactWebsocketUrl (site.url userinfo' query' fragment')

/-- `shown` is the text without a part that ends in an `@`, which is the last one before the first
`/`. -/
def Shows (text shown : List Char) : Prop :=
  ∃ hidden, text = hidden ++ shown ∧ (hidden = [] ∨ ∃ user, hidden = user ++ ['@']) ∧
    '/' ∉ hidden ∧ '@' ∉ firstSegment (· == '/') shown

/-- What is seen behind the scheme: the site, a text, or a text and then the site. -/
inductive Seen
  | site
  | fixed (text : List Char)
  | before (text : List Char)

def Seen.text (site : Site) : Seen → List Char
  | .site => site.hostAndPath
  | fixed text => text
  | before text => text ++ '@' :: site.hostAndPath

/-- What is seen of a user info. -/
inductive SeenAs (userinfo : List Char) : Seen → Prop
  /-- Nothing, if it has no character that ends it early. -/
  | plain (h : ∀ c ∈ userinfo, c ≠ '/' ∧ isQueryMark c = false) : SeenAs userinfo .site
  /-- What comes before the first `?` or `#`, without a part up to an `@`. -/
  | query {before rest shown : List Char} {mark : Char} (h : userinfo = before ++ mark :: rest)
      (hmark : isQueryMark mark = true) (hbefore : ∀ c ∈ before, isQueryMark c = false)
      (hshown : Shows before shown) : SeenAs userinfo (.fixed shown)
  /-- All of it, without such a part, if there is a `/` and neither of these. -/
  | path {shown : List Char} (hmark : ∀ c ∈ userinfo, isQueryMark c = false)
      (hslash : '/' ∈ userinfo) (hshown : Shows userinfo shown) : SeenAs userinfo (.before shown)

/-- The two user infos end where they should, or they agree in what is taken for something else. -/
def Alike (userinfo userinfo' : List Char) : Prop :=
  ∃ seen, SeenAs userinfo seen ∧ SeenAs userinfo' seen

/-! ## What is left of a text -/

/-- The authority ends at the first `/`. -/
theorem withoutUserinfo_append {authority path : List Char} (h : '/' ∉ authority)
    (hpath : ∀ c ∈ path.head?, c = '/') :
    withoutUserinfo (authority ++ path) = (match rsplitOnce '@' authority with
      | some (_, host) => host
      | none => authority) ++ path := by
  rcases path with _ | ⟨c, path⟩
  · rw [List.append_nil, withoutUserinfo, splitOnce_eq_none h]
  · obtain rfl : c = '/' := hpath c rfl
    rw [withoutUserinfo, splitOnce_append h]

/-- A text is cut at its first `/`. -/
theorem slash_spec (text : List Char) : ∃ path, text = firstSegment (· == '/') text ++ path ∧
    '/' ∉ firstSegment (· == '/') text ∧ ∀ c ∈ path.head?, c = '/' := by
  obtain ⟨path, htext, hseg, hpath⟩ := firstSegment_spec (· == '/') text
  refine ⟨path, htext, fun hslash => ?_, fun c hc => beq_iff_eq.1 (hpath c hc)⟩
  have hne := hseg '/' hslash
  simp at hne

theorem firstSegment_slash {authority path : List Char} (h : '/' ∉ authority)
    (hpath : ∀ c ∈ path.head?, c = '/') :
    firstSegment (· == '/') (authority ++ path) = authority :=
  firstSegment_append (fun _ hc => beq_false_of_ne fun hslash => h (hslash ▸ hc))
    fun c hc => beq_iff_eq.2 (hpath c hc)

theorem withoutUserinfo_of_shows {text shown : List Char} (h : Shows text shown) :
    withoutUserinfo text = shown := by
  obtain ⟨hidden, rfl, hend, hslash, hat⟩ := h
  obtain ⟨path, hshown, hseg, hpath⟩ := slash_spec shown
  generalize firstSegment (· == '/') shown = host at hshown hseg hat
  subst hshown
  have hauthority : '/' ∉ hidden ++ host := by simp [hslash, hseg]
  rw [← List.append_assoc, withoutUserinfo_append hauthority hpath]
  rcases hend with rfl | ⟨user, rfl⟩
  · rw [List.nil_append, rsplitOnce_eq_none hat]
  · rw [List.append_assoc, List.singleton_append, rsplitOnce_append user hat]

theorem shows_withoutUserinfo (text : List Char) : Shows text (withoutUserinfo text) := by
  obtain ⟨path, htext, hseg, hpath⟩ := slash_spec text
  generalize firstSegment (· == '/') text = authority at htext hseg
  subst htext
  rw [withoutUserinfo_append hseg hpath]
  have hsplit := rsplitOnce_spec '@' authority
  rcases hcut : rsplitOnce '@' authority with _ | ⟨user, host⟩
  · rw [hcut] at hsplit
    exact ⟨[], rfl, .inl rfl, List.not_mem_nil, by rwa [firstSegment_slash hseg hpath]⟩
  · rw [hcut] at hsplit
    obtain ⟨rfl, hat⟩ := hsplit
    simp only [List.mem_append, List.mem_cons, not_or] at hseg
    refine ⟨user ++ ['@'], by simp, .inr ⟨user, rfl⟩, by simp [hseg], ?_⟩
    rwa [firstSegment_slash hseg.2.2 hpath]

/-- **What is left of a text** is what follows the last `@` before the first `/`. -/
theorem withoutUserinfo_eq_iff {text shown : List Char} :
    withoutUserinfo text = shown ↔ Shows text shown :=
  ⟨fun h => h ▸ shows_withoutUserinfo text, withoutUserinfo_of_shows⟩

/-! ## What is printed -/

theorem Site.of_mem_scheme (site : Site) {c : Char} (h : c ∈ site.scheme) :
    c ≠ ':' ∧ isQueryMark c = false := by
  simpa using eq_false_of_any site.schemePlain c h

theorem Site.of_mem_hostAndPath (site : Site) {c : Char} (h : c ∈ site.hostAndPath) :
    c ≠ '@' ∧ isQueryMark c = false := by
  simpa using eq_false_of_any site.plain c h

/-- The part of a URL that is printed behind the scheme. -/
def Site.printed (site : Site) (userinfo : List Char) : List Char :=
  withoutUserinfo (firstSegment isQueryMark (userinfo ++ '@' :: site.hostAndPath))

theorem redactWebsocketUrl_url (site : Site) (userinfo query fragment : List Char) :
    redactWebsocketUrl (site.url userinfo query fragment) =
      site.scheme ++ ("://".toList ++ site.printed userinfo) := by
  have hscheme : ∀ c ∈ site.scheme ++ "://".toList, isQueryMark c = false := by
    intro c hc
    rcases List.mem_append.1 hc with hc | hc
    · exact (site.of_mem_scheme hc).2
    · exact Text.eq_false_of_any rfl c hc
  have hquery : firstSegment isQueryMark (site.url userinfo query fragment) =
      site.scheme ++ ("://".toList ++
        firstSegment isQueryMark (userinfo ++ '@' :: site.hostAndPath)) := by
    have hurl : site.url userinfo query fragment = (site.scheme ++ "://".toList) ++
        ((userinfo ++ '@' :: site.hostAndPath) ++ '?' :: (query ++ '#' :: fragment)) := by
      simp [Site.url]
    rw [hurl, firstSegment_append_left hscheme, firstSegment_append_sep rfl, List.append_assoc]
  have hcolon : ':' ∉ site.scheme := fun h => (site.of_mem_scheme h).1 rfl
  have hsplit := splitAfter_append hcolon "//".toList
    (firstSegment isQueryMark (userinfo ++ '@' :: site.hostAndPath))
  have hsep : "://".toList = ':' :: "//".toList := rfl
  rw [redactWebsocketUrl, hquery, hsep, hsplit, Site.printed]
  exact List.append_assoc ..

/-- A user info without `?` and `#` is cut nowhere. -/
theorem printed_of_noMark (site : Site) {userinfo : List Char}
    (h : ∀ c ∈ userinfo, isQueryMark c = false) :
    site.printed userinfo = withoutUserinfo (userinfo ++ '@' :: site.hostAndPath) := by
  have hall : ∀ c ∈ userinfo ++ '@' :: site.hostAndPath, isQueryMark c = false := by
    intro c hc
    rcases List.mem_append.1 hc with hc | hc
    · exact h c hc
    · rcases List.mem_cons.1 hc with rfl | hc
      · rfl
      · exact (site.of_mem_hostAndPath hc).2
  rw [Site.printed, firstSegment_eq_self hall]

theorem printed_of_seenAs (site : Site) {userinfo : List Char} {seen : Seen}
    (h : SeenAs userinfo seen) : site.printed userinfo = seen.text site := by
  cases h with
  | plain h =>
    rw [printed_of_noMark site fun c hc => (h c hc).2, withoutUserinfo_eq_iff]
    refine ⟨userinfo ++ ['@'], by simp [Seen.text], .inr ⟨userinfo, rfl⟩, ?_, fun hat => ?_⟩
    · simp only [List.mem_append, List.mem_singleton, not_or]
      exact ⟨fun hslash => (h _ hslash).1 rfl, by decide⟩
    · exact (site.of_mem_hostAndPath (List.takeWhile_subset _ hat)).1 rfl
  | query h hmark hbefore hshown =>
    rw [h, Site.printed, List.append_assoc, List.cons_append, firstSegment_append_sep hmark,
      firstSegment_eq_self hbefore]
    exact withoutUserinfo_of_shows hshown
  | path hmark hslash hshown =>
    obtain ⟨hidden, rfl, hend, hhidden, hat⟩ := hshown
    rename_i shown
    have hmem : '/' ∈ shown := (List.mem_append.1 hslash).resolve_left hhidden
    rw [printed_of_noMark site hmark, withoutUserinfo_eq_iff]
    refine ⟨hidden, by simp [Seen.text], hend, hhidden, ?_⟩
    obtain ⟨path, htext, hseg, hpath⟩ := slash_spec shown
    generalize firstSegment (· == '/') shown = host at htext hseg hat
    subst htext
    rcases path with _ | ⟨c, path⟩
    · exact absurd hmem (by simpa using hseg)
    · rwa [Seen.text, List.append_assoc, firstSegment_slash hseg (by simpa using hpath)]

theorem exists_seenAs (userinfo : List Char) : ∃ seen, SeenAs userinfo seen := by
  obtain ⟨rest, htext, hbefore, hrest⟩ := firstSegment_spec isQueryMark userinfo
  rcases rest with _ | ⟨mark, rest⟩
  · rw [List.append_nil] at htext
    rw [← htext] at hbefore
    by_cases hslash : '/' ∈ userinfo
    · exact ⟨_, .path hbefore hslash (shows_withoutUserinfo userinfo)⟩
    · exact ⟨_, .plain fun c hc => ⟨fun h => hslash (h ▸ hc), hbefore c hc⟩⟩
  · exact ⟨_, .query htext (hrest mark rfl) hbefore (shows_withoutUserinfo _)⟩

/-! ## When the printed URL is independent -/

theorem independent_iff_printed {userinfo userinfo' : List Char} :
    Independent userinfo userinfo' ↔
      ∀ site : Site, site.printed userinfo = site.printed userinfo' := by
  constructor
  · intro h site
    have hsame := h site [] [] [] []
    rw [redactWebsocketUrl_url, redactWebsocketUrl_url, List.append_cancel_left_eq,
      List.append_cancel_left_eq] at hsame
    exact hsame
  · intro h site query fragment query' fragment'
    rw [redactWebsocketUrl_url, redactWebsocketUrl_url, h site]

/-- Two sites to tell apart what is seen. -/
def siteA : Site := ⟨"wss".toList, "a".toList, [], rfl, rfl⟩

def siteB : Site := ⟨"wss".toList, "b".toList, [], rfl, rfl⟩

/-- What is seen of the sites tells what is seen. -/
theorem Seen.eq_of_text {seen seen' : Seen} (h : ∀ site, seen.text site = seen'.text site) :
    seen = seen' := by
  have ha := h siteA
  have hb := h siteB
  have hne : siteA.hostAndPath ≠ siteB.hostAndPath := by decide
  have hlonger : ∀ (text : List Char) (site : Site),
      site.hostAndPath ≠ text ++ '@' :: site.hostAndPath := by
    intro text site heq
    have hlength := congrArg List.length heq
    simp at hlength
    omega
  cases seen with
  | site => cases seen' with
    | site => rfl
    | fixed text => exact absurd (ha.trans hb.symm) hne
    | before text => exact absurd ha (hlonger text siteA)
  | fixed text => cases seen' with
    | site => exact absurd (ha.symm.trans hb) hne
    | fixed text' => exact congrArg fixed ha
    | before text' =>
      have hsame := ha.symm.trans hb
      simp only [Seen.text, List.append_cancel_left_eq, List.cons.injEq, true_and] at hsame
      exact absurd hsame hne
  | before text => cases seen' with
    | site => exact absurd ha.symm (hlonger text siteA)
    | fixed text' =>
      have hsame := ha.trans hb.symm
      simp only [Seen.text, List.append_cancel_left_eq, List.cons.injEq, true_and] at hsame
      exact absurd hsame hne
    | before text' => exact congrArg before (List.append_cancel_right ha)

/-- **When what is printed does not depend on the credentials**: exactly if the same is seen of
both. -/
theorem independent_iff (userinfo userinfo' : List Char) :
    Independent userinfo userinfo' ↔ Alike userinfo userinfo' := by
  rw [independent_iff_printed]
  constructor
  · intro h
    obtain ⟨seen, hseen⟩ := exists_seenAs userinfo
    obtain ⟨seen', hseen'⟩ := exists_seenAs userinfo'
    have hsame : seen = seen' := Seen.eq_of_text fun site => by
      rw [← printed_of_seenAs site hseen, ← printed_of_seenAs site hseen', h site]
    exact ⟨seen, hseen, hsame ▸ hseen'⟩
  · rintro ⟨seen, hseen, hseen'⟩ site
    rw [printed_of_seenAs site hseen, printed_of_seenAs site hseen']

/-- A password with a slash in it is printed. -/
theorem slash_in_password :
    ¬ Independent "user:pass/secret".toList "user:pass/other".toList := by
  intro h
  have hsame := h siteA [] [] [] []
  revert hsame
  decide

end CodexSdk.Luna
