import CodexSdk.Transport.Ws
import CodexSdk.Transport.WsTarget
import CodexSdk.Whatwg

/-!
# Two answers to one question

Whether a `ws://` URL leads to this machine is decided twice.  `parseManagedWsTarget` asks it of
the host the `url` crate has parsed, an address or a domain; `websocketUrlAllowsAuthToken` asks it
of the text, in which it knows three spellings.  A server is started for a URL on the first answer
and probed with the token on the second.

`Agree` says that the two answers are the same.  They are not, and `agree_iff` names the three kinds
of URLs on which they part: a loopback host spelled in a fourth way, the port 80, which the crate
drops, and a loopback host that only the text has, behind a backslash.

The crate follows the URL Standard, of which `Whatwg.read` is the part up to the host; the host
parser stays abstract.
-/

set_option autoImplicit false

namespace CodexSdk
namespace WsDaemon

open Text

/-! ## The `url` crate -/

/-- `Ipv6Addr::LOCALHOST`. -/
def Ipv6Addr.localhost : Ipv6Addr := ⟨[0, 0, 0, 0, 0, 0, 0, 1], rfl⟩

/-- What the crate documents of `ws` URLs.  Of the host parser: the case of a host does not matter,
the canonical spellings mean what they say, and what starts with a bracket is an IPv6 address. -/
structure UrlCrate (site : Surroundings) where
  parseHost : List Char → Option Host
  parseUrl_iff (url : String) (host : Option Host) (port : Option Nat) :
    site.parseUrl url = .ok ⟨"ws", host, port⟩ ↔ ∃ address parsed,
      Whatwg.read url.toList = some address ∧ address.scheme = "ws".toList ∧
      parseHost address.host = some parsed ∧ host = some parsed ∧
      port = address.port.filter (· ≠ 80)
  parseHost_lower (text : List Char) : parseHost (toAsciiLowercase text) = parseHost text
  parseHost_quad : parseHost "127.0.0.1".toList = some (.ipv4 .localhost)
  parseHost_localhost : ∃ ascii, parseHost "localhost".toList = some (.domain "localhost" ascii)
  parseHost_colons : parseHost "[::1]".toList = some (.ipv6 .localhost)
  parseHost_bracket (text : List Char) (host : Host) (h : parseHost ('[' :: text) = some host) :
    ∃ address, text = address ++ [']'] ∧ ']' ∉ address ∧ ':' ∈ address

def Host.isLoopback (host : Host) : Bool := (WsTarget.mk host 0).isLoopback

variable {site : Surroundings}

/-- `url` is a `ws` URL with this host, and with this port written in it. -/
def UrlCrate.Reads (crate : UrlCrate site) (url : String) (host : Host) (port : Nat) : Prop :=
  ∃ address, Whatwg.read url.toList = some address ∧ address.scheme = "ws".toList ∧
    address.port = some port ∧ crate.parseHost address.host = some host

namespace UrlCrate

variable (crate : UrlCrate site) {url : String}

theorem Reads.unique {crate : UrlCrate site} {host host' : Host} {port port' : Nat}
    (h : crate.Reads url host port) (h' : crate.Reads url host' port') :
    host = host' ∧ port = port' := by
  obtain ⟨address, hread, -, hport, hhost⟩ := h
  obtain ⟨address', hread', -, hport', hhost'⟩ := h'
  rw [hread] at hread'
  cases hread'
  rw [hport] at hport'
  rw [hhost] at hhost'
  exact ⟨Option.some.inj hhost', Option.some.inj hport'⟩

/-- The crate parses it, and the port 80 is gone. -/
theorem parseUrl_of_reads {host : Host} {port : Nat} (h : crate.Reads url host port) :
    site.parseUrl url = .ok ⟨"ws", some host, if port = 80 then none else some port⟩ := by
  obtain ⟨address, hread, hscheme, hport, hhost⟩ := h
  refine (crate.parseUrl_iff url _ _).2 ⟨address, host, hread, hscheme, hhost, rfl, ?_⟩
  rw [hport, Option.filter_some]
  split
  · rename_i h80
    rw [h80]
    rfl
  · rename_i h80
    rw [if_pos (decide_eq_true h80)]

theorem reads_of_parseUrl {host : Option Host} {port : Option Nat} {address : Whatwg.Address}
    {written : Nat} (h : site.parseUrl url = .ok ⟨"ws", host, port⟩)
    (hread : Whatwg.read url.toList = some address) (hport : address.port = some written) :
    ∃ parsed, host = some parsed ∧ crate.Reads url parsed written := by
  obtain ⟨address', parsed, hread', hscheme, hhost, rfl, -⟩ := (crate.parseUrl_iff url _ _).1 h
  rw [hread] at hread'
  cases hread'
  exact ⟨parsed, rfl, address, hread, hscheme, hport, hhost⟩

end UrlCrate

/-! ## The answer of the parser -/

/-- What a managed target is. -/
theorem parseManagedWsTarget_eq_some {url : String} {target : WsStartTarget}
    (h : parseManagedWsTarget site url = .ok (some target)) :
    target.connectUrl = url ∧ ∃ host port,
      site.parseUrl url = .ok ⟨"ws", some host, some port⟩ ∧ host.isLoopback = true := by
  rw [parseManagedWsTarget] at h
  match hparse : site.parseUrl url with
  | .error err => rw [hparse] at h; cases h
  | .ok ⟨scheme, host, port⟩ =>
    rw [hparse] at h
    simp only [Except.mapError, bind, Except.bind, pure, Except.pure] at h
    split at h
    · cases h
    · rename_i hscheme
      rw [not_ne_iff] at hscheme
      split at h
      · rename_i host
        split at h
        · cases h
        · rename_i hloop
          rw [Bool.not_eq_true', Bool.not_eq_false] at hloop
          split at h
          · rename_i port
            cases h
            exact ⟨rfl, host, port, by rw [hscheme], hloop⟩
          · cases h
      · cases h

/-- A loopback host is managed, under the URL of the normalized endpoint. -/
theorem exists_listenUrl {url : String} {host : Host} {port : Nat}
    (h : site.parseUrl url = .ok ⟨"ws", some host, some port⟩) (hloop : host.isLoopback = true) :
    ∃ target, parseManagedWsTarget site url = .ok (some target) ∧
      target.listenUrl = (WsTarget.mk host port).normalized.url := by
  let connect : WsTarget := ⟨host, port⟩
  refine ⟨⟨url, connect.normalized.url, connect.normalized, connect.logPath site⟩, ?_, rfl⟩
  rw [parseManagedWsTarget, h]
  show (if (!host.isLoopback) = true then _ else _) = _
  rw [hloop]
  rfl

theorem exists_managed {url : String} {host : Host} {port : Nat}
    (h : site.parseUrl url = .ok ⟨"ws", some host, some port⟩) (hloop : host.isLoopback = true) :
    ∃ target, parseManagedWsTarget site url = .ok (some target) := by
  obtain ⟨target, htarget, -⟩ := exists_listenUrl h hloop
  exact ⟨target, htarget⟩

/-- The parser manages what is read with a loopback host and another port than 80. -/
theorem UrlCrate.managed_iff (crate : UrlCrate site) (url : String) :
    (∃ target, parseManagedWsTarget site url = .ok (some target)) ↔
      ∃ host port, crate.Reads url host port ∧ host.isLoopback = true ∧ port ≠ 80 := by
  constructor
  · rintro ⟨target, h⟩
    obtain ⟨-, host, port, hparse, hloop⟩ := parseManagedWsTarget_eq_some h
    obtain ⟨address, parsed, hread, hscheme, hhost, heq, hport⟩ :=
      (crate.parseUrl_iff url _ _).1 hparse
    cases heq
    obtain ⟨hwritten, h80⟩ := Option.filter_eq_some_iff.1 hport.symm
    exact ⟨host, port, ⟨address, hread, hscheme, hwritten, hhost⟩, hloop, of_decide_eq_true h80⟩
  · rintro ⟨host, port, hreads, hloop, h80⟩
    have hparse := crate.parseUrl_of_reads hreads
    rw [if_neg h80] at hparse
    exact exists_managed hparse hloop

/-! ## The answer of the scanner -/

/-- Where a reader of plain text cuts a `ws` URL: after the `//`, at the first end of an authority,
and behind the last `@` before it. -/
structure Cut (text : List Char) where
  scheme : List Char
  userinfo : List Char
  hostport : List Char
  tail : List Char
  text_eq : text = scheme ++ ':' :: '/' :: '/' :: (userinfo ++ hostport ++ tail)
  scheme_eq : toAsciiLowercase scheme = "ws".toList
  userinfo_eq : userinfo = [] ∨ ∃ init, userinfo = init ++ ['@']
  at_not_mem : '@' ∉ hostport
  authority_plain : ∀ c ∈ userinfo ++ hostport, isAuthorityEnd c = false
  tail_head : ∀ c ∈ tail.head?, isAuthorityEnd c = true

/-- A loopback host, in one of the spellings the scanner knows, up to a colon or a bracket. -/
def NamesLoopback (hostport : List Char) : Prop :=
  ∃ host after, hostport = host ++ after ∧
    ((toAsciiLowercase host ∈ ["127.0.0.1".toList, "localhost".toList] ∧
        ∀ c ∈ after.head?, c = ':') ∨
      ∃ name, host = '[' :: name ∧
        toAsciiLowercase name ∈ ["127.0.0.1".toList, "localhost".toList, "::1".toList] ∧
        ∀ c ∈ after.head?, c = ']')

/-- What holds of the characters of some lowered texts holds of those of a text that is lowered to
one of them. -/
theorem of_mem_lower {p : Char → Bool} (hp : ∀ c, p c.toLower = p c) {name : List Char}
    {names : List (List Char)} (h : toAsciiLowercase name ∈ names)
    (hnames : names.all (·.all p) = true) : ∀ c ∈ name, p c = true := fun c hc => by
  rw [← hp]
  exact List.all_eq_true.1 (List.all_eq_true.1 hnames _ h) _ (List.mem_map_of_mem hc)

/-- The spellings that need no brackets consist of letters, digits and dots. -/
theorem plain_of_bare {name : List Char}
    (h : toAsciiLowercase name ∈ ["127.0.0.1".toList, "localhost".toList]) :
    ∀ c ∈ name, Whatwg.isC0ControlOrSpace c = false ∧ Whatwg.endsAuthority c = false ∧
      c ≠ ':' ∧ c ≠ '[' ∧ c ≠ ']' ∧ c ≠ '@' := fun c hc =>
  Whatwg.plain_of_isSchemeChar (of_mem_lower Whatwg.isSchemeChar_toLower h rfl c hc)

/-- One has colons besides. -/
theorem plain_of_bracketed {name : List Char}
    (h : toAsciiLowercase name ∈ ["127.0.0.1".toList, "localhost".toList, "::1".toList]) :
    ∀ c ∈ name, Whatwg.isC0ControlOrSpace c = false ∧ Whatwg.endsAuthority c = false ∧
      c ≠ '[' ∧ c ≠ ']' := by
  have hcolon_toLower : ∀ c : Char, (Whatwg.isSchemeChar c.toLower || c.toLower == ':') =
      (Whatwg.isSchemeChar c || c == ':') := fun c => by
    have hbeq : (c.toLower == ':') = (c == ':') := by
      rw [Bool.eq_iff_iff, beq_iff_eq, beq_iff_eq, toLower_eq_iff rfl]
    rw [Whatwg.isSchemeChar_toLower, hbeq]
  intro c hc
  have hchar := of_mem_lower (p := fun c => Whatwg.isSchemeChar c || c == ':') hcolon_toLower
    h rfl c hc
  rw [Bool.or_eq_true, beq_iff_eq] at hchar
  rcases hchar with hchar | rfl
  · obtain ⟨hvisible, hends, -, hopen, hclose, -⟩ := Whatwg.plain_of_isSchemeChar hchar
    exact ⟨hvisible, hends, hopen, hclose⟩
  · decide

/-- The lowered host is cut out of the lowered text. -/
theorem hostOf_lower {userinfo hostport : List Char}
    (huserinfo : userinfo = [] ∨ ∃ init, userinfo = init ++ ['@']) (hat : '@' ∉ hostport) :
    hostOf (toAsciiLowercase (userinfo ++ hostport)) = hostOf (toAsciiLowercase hostport) := by
  have hat' : '@' ∉ toAsciiLowercase hostport := by rwa [mem_toAsciiLowercase rfl]
  rcases huserinfo with rfl | ⟨init, rfl⟩
  · rfl
  · rw [toAsciiLowercase_append, toAsciiLowercase_append, List.append_assoc]
    exact Url.hostOf_of_userinfo _ hat'

theorem names_of_hostOf_mem {hostport : List Char} (hat : '@' ∉ hostport)
    (h : hostOf (toAsciiLowercase hostport) ∈
      ["127.0.0.1".toList, "localhost".toList, "::1".toList]) : NamesLoopback hostport := by
  by_cases hopen : ∃ rest, hostport = '[' :: rest
  · obtain ⟨rest, rfl⟩ := hopen
    rw [hostOf_bracket hat] at h
    obtain ⟨after, heq, -, hafter⟩ := firstSegment_spec (· == ']') rest
    exact ⟨'[' :: firstSegment (· == ']') rest, after, congrArg ('[' :: ·) heq,
      .inr ⟨_, rfl, h, fun c hc => beq_iff_eq.1 (hafter c hc)⟩⟩
  · rw [hostOf_bare hat fun c hc heq => hopen ⟨_, heq ▸ List.eq_cons_of_mem_head? hc⟩] at h
    obtain ⟨after, heq, hno, hafter⟩ := firstSegment_spec (· == ':') hostport
    refine ⟨_, after, heq, .inl ⟨?_, fun c hc => beq_iff_eq.1 (hafter c hc)⟩⟩
    rw [List.mem_cons, List.mem_cons, List.mem_singleton, ← or_assoc] at h
    rcases h with h | h
    · rwa [List.mem_cons, List.mem_singleton]
    · have hmem : ':' ∈ toAsciiLowercase (firstSegment (· == ':') hostport) := by
        rw [h]
        decide
      exact absurd (hno ':' ((mem_toAsciiLowercase rfl).1 hmem)) (by decide)

theorem hostOf_mem_of_names {hostport : List Char} (hat : '@' ∉ hostport) :
    NamesLoopback hostport → hostOf (toAsciiLowercase hostport) ∈
      ["127.0.0.1".toList, "localhost".toList, "::1".toList] := by
  rintro ⟨host, after, rfl, ⟨hhost, hafter⟩ | ⟨name, rfl, hname, hafter⟩⟩
  · have hplain := plain_of_bare hhost
    have hopen : ∀ c ∈ (host ++ after).head?, c ≠ '[' := by
      rintro c hc rfl
      rw [List.head?_append, Option.mem_def, Option.or_eq_some_iff] at hc
      rcases hc with hc | ⟨-, hc⟩
      · exact (hplain _ (List.mem_of_mem_head? hc)).2.2.2.1 rfl
      · exact absurd (hafter _ hc) (by decide)
    have hcolon : ∀ c ∈ host, (c == ':') = false := fun c hc =>
      beq_false_of_ne (hplain c hc).2.2.1
    rw [hostOf_bare hat hopen,
      firstSegment_append hcolon fun c hc => beq_iff_eq.2 (hafter c hc)]
    rw [List.mem_cons, List.mem_singleton] at hhost
    rw [List.mem_cons, List.mem_cons, ← or_assoc]
    exact .inl hhost
  · have hclose : ∀ c ∈ name, (c == ']') = false := fun c hc =>
      beq_false_of_ne (plain_of_bracketed hname c hc).2.2.2
    rw [List.cons_append] at hat ⊢
    rwa [hostOf_bracket hat,
      firstSegment_append hclose fun c hc => beq_iff_eq.2 (hafter c hc)]

/-- **The scanner cuts the host out** and looks it up. -/
theorem hostOf_mem_iff {hostport : List Char} (hat : '@' ∉ hostport) :
    hostOf (toAsciiLowercase hostport) ∈
      ["127.0.0.1".toList, "localhost".toList, "::1".toList] ↔ NamesLoopback hostport :=
  ⟨names_of_hostOf_mem hat, hostOf_mem_of_names hat⟩

namespace Cut

variable {url : String} (cut : Cut (trim url.toList))

/-- The scanner sees the same cuts. -/
theorem allows_iff : websocketUrlAllowsAuthToken url = true ↔ NamesLoopback cut.hostport := by
  have hlower : toAsciiLowercase (trim url.toList) = 'w' :: 's' :: ':' :: '/' :: '/' ::
      toAsciiLowercase (cut.userinfo ++ cut.hostport ++ cut.tail) := by
    refine (congrArg toAsciiLowercase cut.text_eq).trans ?_
    rw [toAsciiLowercase_append, cut.scheme_eq]
    rfl
  show (if "wss://".toList.isPrefixOf (toAsciiLowercase (trim url.toList)) then _ else _) = _ ↔ _
  rw [hlower, if_neg (by simp), if_neg (by simp)]
  show List.contains _ (hostOf (firstSegment isAuthorityEnd (toAsciiLowercase _))) = true ↔ _
  rw [firstSegment_toAsciiLowercase isAuthorityEnd_toLower,
    firstSegment_append cut.authority_plain cut.tail_head,
    hostOf_lower cut.userinfo_eq cut.at_not_mem, List.contains_iff_mem,
    hostOf_mem_iff cut.at_not_mem]

end Cut

/-- Every text with `ws://` in front can be cut. -/
theorem exists_cut {text : List Char}
    (h : "ws://".toList <+: toAsciiLowercase text) : Nonempty (Cut text) := by
  obtain ⟨lowered, h⟩ := h
  obtain ⟨front, rest, rfl, hfront, -⟩ := List.map_eq_append_iff.1 h.symm
  have hsplit : toAsciiLowercase front = "ws".toList ++ "://".toList := hfront
  obtain ⟨scheme, slashes, rfl, hscheme, hslashes⟩ := List.map_eq_append_iff.1 hsplit
  have hslashes : slashes = [':', '/', '/'] := (toAsciiLowercase_eq_iff rfl).1 hslashes
  obtain ⟨tail, hrest, hplain, htail⟩ := firstSegment_spec isAuthorityEnd rest
  have hcut : ∀ userinfo hostport,
      firstSegment isAuthorityEnd rest = userinfo ++ hostport →
      (userinfo = [] ∨ ∃ init, userinfo = init ++ ['@']) → '@' ∉ hostport →
      Nonempty (Cut (scheme ++ slashes ++ rest)) := by
    intro userinfo hostport hauthority huserinfo hat
    rw [hauthority] at hrest hplain
    exact ⟨scheme, userinfo, hostport, tail, by rw [hslashes, hrest]; simp, hscheme, huserinfo,
      hat, hplain, htail⟩
  have hspec := rsplitOnce_spec '@' (firstSegment isAuthorityEnd rest)
  split at hspec
  · rename_i before after _
    refine hcut (before ++ ['@']) after ?_ (.inr ⟨before, rfl⟩) hspec.2
    rw [hspec.1, List.append_assoc, List.singleton_append]
  · exact hcut [] _ rfl (.inl rfl) hspec

/-- The scanner allows a token when the text asks for TLS, or names a loopback host. -/
theorem allows_cases {url : String} (h : websocketUrlAllowsAuthToken url = true) :
    "wss://".toList <+: toAsciiLowercase (trim url.toList) ∨
      ∃ cut : Cut (trim url.toList), NamesLoopback cut.hostport := by
  by_cases hwss : "wss://".toList.isPrefixOf (toAsciiLowercase (trim url.toList)) = true
  · exact .inl (List.isPrefixOf_iff_prefix.1 hwss)
  · by_cases hws : "ws://".toList.isPrefixOf (toAsciiLowercase (trim url.toList)) = true
    · obtain ⟨cut⟩ := exists_cut (List.isPrefixOf_iff_prefix.1 hws)
      exact .inr ⟨cut, cut.allows_iff.1 h⟩
    · rw [websocketUrlAllowsAuthToken, if_neg hwss,
        if_pos (by rw [Bool.not_eq_true', Bool.eq_false_iff]; exact hws)] at h
      exact absurd h Bool.false_ne_true

/-! ## The same text under the standard -/

/-- A text that is lowered to the name of a scheme is one. -/
theorem exists_scheme {scheme name : List Char} {d : Char} (h : toAsciiLowercase scheme = d :: name)
    (hhead : d.isAlpha = true) (hname : ∀ x ∈ d :: name, Whatwg.isSchemeChar x = true) :
    ∃ c rest, scheme = c :: rest ∧ c.isAlpha = true ∧
      ∀ x ∈ c :: rest, Whatwg.isSchemeChar x = true := by
  match scheme with
  | c :: rest =>
    refine ⟨c, rest, rfl, ?_, fun x hx => ?_⟩
    · rw [← isAlpha_toLower, (List.cons.inj h).1]
      exact hhead
    · rw [← Whatwg.isSchemeChar_toLower]
      exact hname _ (h ▸ List.mem_map_of_mem hx)

/-- The standard has one more end of an authority than the scanner. -/
theorem endsAuthority_eq (c : Char) :
    Whatwg.endsAuthority c = (isAuthorityEnd c || c == '\\') := by
  rw [Bool.eq_iff_iff, Bool.or_eq_true, beq_iff_eq]
  simp only [isAuthorityEnd, Whatwg.endsAuthority, List.contains_eq_mem, decide_eq_true_eq,
    List.mem_cons, List.not_mem_nil, or_false]
  rw [or_left_comm, or_comm]

/-- What is read of a URL is read of its trimmed text, and of the blanks that follow it. -/
theorem read_trim {url : String} {address : Whatwg.Address}
    (h : Whatwg.read url.toList = some address) :
    ∃ blanks, Whatwg.read (trim url.toList ++ blanks) = some address ∧
      ∀ c ∈ blanks, isWhitespace c = true := by
  obtain ⟨before, after, heq, hbefore, hafter⟩ := trim_spec url.toList
  rw [heq] at h
  exact ⟨after, Whatwg.read_of_blanks hbefore h, hafter⟩

/-- A `ws` URL does not start with `wss://`. -/
theorem UrlCrate.Reads.not_wss {crate : UrlCrate site} {url : String} {host : Host} {port : Nat}
    (h : crate.Reads url host port) :
    ¬ "wss://".toList <+: toAsciiLowercase (trim url.toList) := by
  rintro ⟨lowered, hlowered⟩
  obtain ⟨address, hread, hws, -⟩ := h
  obtain ⟨blanks, hread, -⟩ := read_trim hread
  obtain ⟨front, rest, heq, hfront, -⟩ := List.map_eq_append_iff.1 hlowered.symm
  have hsplit : toAsciiLowercase front = "wss".toList ++ "://".toList := hfront
  obtain ⟨scheme, slashes, rfl, hscheme, hslashes⟩ := List.map_eq_append_iff.1 hsplit
  have hslashes : slashes = [':', '/', '/'] := (toAsciiLowercase_eq_iff rfl).1 hslashes
  obtain ⟨c, name, rfl, halpha, hchars⟩ :=
    exists_scheme (show _ = 'w' :: ['s', 's'] from hscheme) rfl (List.all_eq_true.1 rfl)
  obtain ⟨rest', hsplit', -⟩ := Whatwg.read_cases hread
  rw [heq, hslashes, List.append_assoc, List.append_assoc, List.cons_append, List.cons_append,
    ← List.cons_append, Whatwg.splitScheme_input _ halpha hchars] at hsplit'
  have hname : toAsciiLowercase (c :: name) = address.scheme :=
    (Prod.mk.inj (Option.some.inj hsplit')).1
  rw [hws] at hname
  exact absurd (hname.symm.trans hscheme) (by decide)

namespace Cut

variable {url : String} (cut : Cut (trim url.toList))

/-- What follows the scheme, without what the parser passes over. -/
theorem filter_rest {visible : List Char} (after : List Char) (hne : visible ≠ [])
    (hvisible : ∀ x ∈ visible, Whatwg.isC0ControlOrSpace x = false) :
    (('/' :: '/' :: (cut.userinfo ++ (visible ++ after))).rdropWhile
        Whatwg.isC0ControlOrSpace).filter (!Whatwg.isTabOrNewline ·) =
      '/' :: '/' :: (cut.userinfo.filter (!Whatwg.isTabOrNewline ·) ++ (visible ++
        (after.rdropWhile Whatwg.isC0ControlOrSpace).filter (!Whatwg.isTabOrNewline ·))) := by
  obtain ⟨init, x, hlast⟩ : ∃ init x, visible = init ++ [x] :=
    ⟨_, _, (List.dropLast_append_getLast hne).symm⟩
  have hx := hvisible x (hlast ▸ List.mem_append_right _ (List.mem_singleton_self x))
  have hdrop :
      ('/' :: '/' :: (cut.userinfo ++ (visible ++ after))).rdropWhile Whatwg.isC0ControlOrSpace =
        ['/', '/'] ++ (cut.userinfo ++
          (visible ++ after.rdropWhile Whatwg.isC0ControlOrSpace)) := by
    have h := rdropWhile_append_of_last (a := ['/', '/'] ++ (cut.userinfo ++ init)) hx after
    rw [hlast]
    simpa only [List.append_assoc, List.cons_append, List.nil_append] using h
  rw [hdrop, List.filter_append, List.filter_append, List.filter_append,
    Whatwg.filter_visible hvisible]
  rfl

/-- Without a backslash nothing ends the authority for the standard before the scanner's host. -/
theorem endsAuthority_of_mem {host after : List Char} (hhost : cut.hostport = host ++ after)
    (hback : '\\' ∉ cut.userinfo ++ host) :
    ∀ x ∈ cut.userinfo ++ host, Whatwg.endsAuthority x = false := by
  intro x hx
  have hplain := cut.authority_plain x (by
    rw [hhost, ← List.append_assoc]
    exact List.mem_append_left _ hx)
  rw [endsAuthority_eq, hplain, Bool.false_or, beq_eq_false_iff_ne]
  exact fun h => hback (h ▸ hx)

theorem endsAuthority_tail : ∀ x ∈ cut.tail.head?, Whatwg.endsAuthority x = true := fun x hx => by
  rw [endsAuthority_eq, cut.tail_head x hx, Bool.true_or]

theorem userinfo_filter : cut.userinfo.filter (!Whatwg.isTabOrNewline ·) = [] ∨
    ∃ init, cut.userinfo.filter (!Whatwg.isTabOrNewline ·) = init ++ ['@'] := by
  rcases cut.userinfo_eq with h | ⟨init, h⟩
  · exact .inl (by rw [h, List.filter_nil])
  · exact .inr ⟨_, by rw [h, List.filter_append]; rfl⟩

/-- **The host the standard reads** starts with what the scanner's starts with, unless a backslash
has ended the authority before.  Where there is a port, the scanner's authority has more than the
host. -/
theorem read_host {address : Whatwg.Address} {c : Char} {host after : List Char} {port : Nat}
    (hhost : cut.hostport = c :: host ++ after)
    (hvisible : ∀ x ∈ c :: host, Whatwg.isC0ControlOrSpace x = false)
    (hback : '\\' ∉ cut.userinfo ++ c :: host)
    (hread : Whatwg.read url.toList = some address) (hport : address.port = some port) :
    ∃ rest, address.host = (Whatwg.splitHost false (c :: host ++ rest)).1 ∧
      (Whatwg.splitHost false (c :: host ++ rest)).2 ≠ [] ∧ (':' ∈ rest → after ≠ []) ∧
      ∀ d ∈ after.head?, Whatwg.isC0ControlOrSpace d = false → Whatwg.endsAuthority d = false →
        d ∈ rest.head? := by
  obtain ⟨blanks, hread, hblanks⟩ := read_trim hread
  obtain ⟨s, scheme, hscheme, halpha, hchars⟩ :=
    exists_scheme (show _ = 'w' :: ['s'] from cut.scheme_eq) rfl (List.all_eq_true.1 rfl)
  have htext : trim url.toList ++ blanks = s :: scheme ++ ':' ::
      ('/' :: '/' :: (cut.userinfo ++ (c :: host ++ (after ++ cut.tail ++ blanks)))) := by
    refine (congrArg (· ++ blanks) cut.text_eq).trans ?_
    rw [hscheme, hhost]
    simp only [List.append_assoc, List.cons_append]
  obtain ⟨rest', hsplit, haddress, hdigits⟩ := Whatwg.read_cases hread
  rw [htext, Whatwg.splitScheme_input _ halpha hchars,
    cut.filter_rest _ (List.cons_ne_nil c host) hvisible] at hsplit
  have hrest := (Prod.mk.inj (Option.some.inj hsplit)).2
  have hends := cut.endsAuthority_of_mem hhost hback
  have hplain : ∀ x ∈ cut.userinfo.filter (!Whatwg.isTabOrNewline ·) ++ c :: host,
      Whatwg.endsAuthority x = false := fun x hx => hends x <|
    List.mem_append.2 ((List.mem_append.1 hx).imp_left fun h => (List.mem_filter.1 h).1)
  -- What the authority has after the host.
  let kept := ((after ++ cut.tail ++ blanks).rdropWhile Whatwg.isC0ControlOrSpace).filter
    (!Whatwg.isTabOrNewline ·)
  let rest := firstSegment Whatwg.endsAuthority kept
  have hmem : ∀ x ∈ rest, x ∈ after ∨ x ∈ blanks := fun x hx =>
    Whatwg.mem_authority_end cut.endsAuthority_tail hx
  have hat : '@' ∉ c :: host ++ rest := by
    intro h
    have hno := cut.at_not_mem
    rw [hhost, List.mem_append, not_or] at hno
    rcases List.mem_append.1 h with h | h
    · exact hno.1 h
    · exact (hmem '@' h).elim hno.2 fun h => absurd (hblanks '@' h) (by decide)
  have hhostport : Whatwg.hostport (Whatwg.authority rest') = c :: host ++ rest := by
    rw [← hrest]
    exact Whatwg.hostport_authority host kept cut.userinfo_filter hplain hat
  rw [hhostport] at haddress hdigits
  refine ⟨rest, haddress, fun hnil => ?_, ?_, fun d hd hvis hend => ?_⟩
  · rw [hnil, hport] at hdigits
    cases hdigits
  · rintro hcolon rfl
    exact (hmem ':' hcolon).elim List.not_mem_nil fun h => absurd (hblanks ':' h) (by decide)
  · show d ∈ (firstSegment _ (List.filter _ (List.rdropWhile _ (after ++ _ ++ _)))).head?
    rw [List.eq_cons_of_mem_head? hd]
    exact Whatwg.head_authority_end hvis hend

/-- Where there is a port, there is the character that ends the scanner's host. -/
theorem exists_of_port {inside : Bool} {after rest : List Char} {d : Char}
    (hport : (Whatwg.splitHost inside rest).2 ≠ []) (hcolon : ':' ∈ rest → after ≠ [])
    (hafter : ∀ c ∈ after.head?, c = d) (hhead : ∀ c ∈ after.head?, c ∈ rest.head?) :
    ∃ more, rest = d :: more := by
  have hmem : ':' ∈ rest := by
    by_contra h
    exact hport (Whatwg.splitHost_port_eq_nil h)
  obtain ⟨c, after, rfl⟩ := List.exists_cons_of_ne_nil (hcolon hmem)
  have hc := hhead c rfl
  rw [hafter c rfl] at hc
  exact ⟨_, List.eq_cons_of_mem_head? hc⟩

/-- A spelling without brackets is the host that is read. -/
theorem host_of_bare {address : Whatwg.Address} {name after : List Char} {port : Nat}
    (hhost : cut.hostport = name ++ after)
    (hname : toAsciiLowercase name ∈ ["127.0.0.1".toList, "localhost".toList])
    (hafter : ∀ c ∈ after.head?, c = ':') (hback : '\\' ∉ cut.userinfo)
    (hread : Whatwg.read url.toList = some address) (hport : address.port = some port) :
    address.host = name := by
  have hplain := plain_of_bare hname
  have hne : name ≠ [] := by
    rintro rfl
    exact absurd hname (by decide)
  obtain ⟨c, name, rfl⟩ := List.exists_cons_of_ne_nil hne
  have hback' : '\\' ∉ cut.userinfo ++ c :: name := fun hmem =>
    (List.mem_append.1 hmem).elim hback fun hmem => absurd (hplain _ hmem).2.1 (by decide)
  obtain ⟨rest, haddress, hdigits, hcolon, hhead⟩ :=
    cut.read_host hhost (fun x hx => (hplain x hx).1) hback' hread hport
  rw [Whatwg.splitHost_append rest fun x hx =>
    ⟨fun h => absurd h (hplain x hx).2.2.1, (hplain x hx).2.2.2.1, (hplain x hx).2.2.2.2.1⟩]
    at haddress hdigits
  obtain ⟨digits, rfl⟩ := exists_of_port hdigits hcolon hafter fun x hx =>
    hhead x hx (by rw [hafter x hx]; rfl) (by rw [hafter x hx]; rfl)
  rwa [Whatwg.splitHost_colon, List.append_nil] at haddress

/-- One in brackets is the start of it, with the bracket that closes. -/
theorem host_of_bracket {address : Whatwg.Address} {name after : List Char} {port : Nat}
    (hhost : cut.hostport = '[' :: name ++ after)
    (hname : toAsciiLowercase name ∈ ["127.0.0.1".toList, "localhost".toList, "::1".toList])
    (hafter : ∀ c ∈ after.head?, c = ']') (hback : '\\' ∉ cut.userinfo)
    (hread : Whatwg.read url.toList = some address) (hport : address.port = some port) :
    ']' ∉ name ∧ ∃ rest, address.host = '[' :: (name ++ ']' :: rest) := by
  have hplain := plain_of_bracketed hname
  have hback' : '\\' ∉ cut.userinfo ++ '[' :: name := fun hmem =>
    (List.mem_append.1 hmem).elim hback fun hmem => (List.mem_cons.1 hmem).elim (by decide)
      fun hmem => absurd (hplain _ hmem).2.1 (by decide)
  obtain ⟨rest, haddress, hdigits, hcolon, hhead⟩ := cut.read_host hhost
    (fun x hx => (List.mem_cons.1 hx).elim (fun h => h ▸ rfl) fun hx => (hplain x hx).1)
    hback' hread hport
  rw [List.cons_append, Whatwg.splitHost_open,
    Whatwg.splitHost_append rest fun x hx => ⟨fun _ => rfl, (hplain x hx).2.2⟩] at haddress hdigits
  obtain ⟨more, rfl⟩ := exists_of_port hdigits hcolon hafter fun x hx =>
    hhead x hx (by rw [hafter x hx]; rfl) (by rw [hafter x hx]; rfl)
  rw [Whatwg.splitHost_close] at haddress
  exact ⟨fun h => (hplain ']' h).2.2.2 rfl, _, haddress⟩

/-- **What the text names is what the crate reads**, unless a backslash stands before it. -/
theorem loopback_of_reads {crate : UrlCrate site} {host : Host} {port : Nat}
    (hnames : NamesLoopback cut.hostport) (hback : '\\' ∉ cut.userinfo)
    (h : crate.Reads url host port) : host.isLoopback = true := by
  obtain ⟨address, hread, -, hport, hparse⟩ := h
  obtain ⟨name, after, hhost, ⟨hname, hafter⟩ | ⟨inner, rfl, hinner, hafter⟩⟩ := hnames
  · rw [cut.host_of_bare hhost hname hafter hback hread hport, ← crate.parseHost_lower] at hparse
    rw [List.mem_cons, List.mem_singleton] at hname
    rcases hname with h | h
    · rw [h, crate.parseHost_quad] at hparse
      cases hparse
      rfl
    · obtain ⟨ascii, hlocalhost⟩ := crate.parseHost_localhost
      rw [h, hlocalhost] at hparse
      cases hparse
      rfl
  · obtain ⟨hclose, rest, haddress⟩ := cut.host_of_bracket hhost hinner hafter hback hread hport
    rw [haddress] at hparse
    -- Of the three only one is an IPv6 address, and nothing follows its bracket.
    obtain ⟨text, htext, hclose', hcolon⟩ := crate.parseHost_bracket _ _ hparse
    obtain ⟨rfl, hend⟩ := (append_cons_inj hclose hclose').1 htext
    have hlower : toAsciiLowercase inner = "::1".toList := by
      rw [← mem_toAsciiLowercase rfl] at hcolon
      rw [List.mem_cons, List.mem_cons, List.mem_singleton] at hinner
      rcases hinner with h | h | h
      · rw [h] at hcolon
        exact absurd hcolon (by decide)
      · rw [h] at hcolon
        exact absurd hcolon (by decide)
      · exact h
    have hlowered : toAsciiLowercase ('[' :: (inner ++ [']'])) = "[::1]".toList := by
      rw [toAsciiLowercase_cons, toAsciiLowercase_append, hlower]
      rfl
    rw [hend, ← crate.parseHost_lower, hlowered, crate.parseHost_colons] at hparse
    cases hparse
    rfl

end Cut

/-! ## Where the answers part -/

/-- What a token asked of an endpoint it must not be sent to gets. -/
def tokenRefusal : ClientError :=
  .config "websocket auth tokens require `wss://` or a loopback `ws://` URL"

/-- The two answers are the same for `url`: a target that is managed may carry a token, and its
probe is not refused for its URL; and a `ws` URL that has a port, parses and may carry a token is
managed. -/
structure Agree (site : Surroundings) (url : String) : Prop where
  allows_of_managed (target : WsStartTarget)
    (h : parseManagedWsTarget site url = .ok (some target)) :
    websocketUrlAllowsAuthToken url = true ∧ ∀ http token,
      buildWsRequest http target.connectUrl (some token) ≠ .error tokenRefusal
  managed_of_allows (parsed : ParsedUrl) (address : Whatwg.Address)
    (hparse : site.parseUrl url = .ok parsed) (hscheme : parsed.scheme = "ws")
    (hread : Whatwg.read url.toList = some address) (hport : address.port ≠ none)
    (hallows : websocketUrlAllowsAuthToken url = true) :
    ∃ target, parseManagedWsTarget site url = .ok (some target)

/-- The loopback host that is read is not spelled `127.0.0.1`, `localhost` or `[::1]` behind the
`ws://` of the text. -/
def OtherSpelling (crate : UrlCrate site) (url : String) : Prop :=
  ∃ host port, crate.Reads url host port ∧ host.isLoopback = true ∧ port ≠ 80 ∧
    ∀ cut : Cut (trim url.toList), ¬ NamesLoopback cut.hostport

/-- It is, and the port is the one the crate drops. -/
def DefaultPort (crate : UrlCrate site) (url : String) : Prop :=
  ∃ host, crate.Reads url host 80 ∧
    ∃ cut : Cut (trim url.toList), NamesLoopback cut.hostport

/-- Another host is read, in front of a backslash that the text has before the loopback host. -/
def BehindBackslash (crate : UrlCrate site) (url : String) : Prop :=
  ∃ host port, crate.Reads url host port ∧ host.isLoopback = false ∧
    ∃ cut : Cut (trim url.toList), NamesLoopback cut.hostport ∧ '\\' ∈ cut.userinfo

theorem ne_tokenRefusal {α : Type} {message : String} (h : message.toList.head? ≠ some 'w') :
    (.error (.config message) : Except ClientError α) ≠ .error tokenRefusal := by
  intro heq
  have hmessage : message = "websocket auth tokens require `wss://` or a loopback `ws://` URL" :=
    ClientError.config.inj (Except.error.inj heq)
  rw [hmessage] at h
  exact h rfl

/-- A request is refused for its URL, not for its form or its token, when the scanner does not allow
a token. -/
theorem buildWsRequest_refused_iff (http : Http) (url token : String) :
    buildWsRequest http url (some token) = .error tokenRefusal ↔
      websocketUrlAllowsAuthToken url = false := by
  unfold buildWsRequest
  cases hallows : websocketUrlAllowsAuthToken url with
  | false => exact iff_of_true rfl rfl
  | true =>
    refine iff_of_false ?_ (by decide)
    cases hinto : http.intoClientRequest url with
    | error err => exact ne_tokenRefusal (by simp [toString])
    | ok plain =>
      cases hvalue : http.headerValue s!"Bearer {token}" with
      | error err =>
        simp only [hvalue]
        exact ne_tokenRefusal (by simp [toString])
      | ok value =>
        simp only [hvalue]
        exact nofun

/-- **The two answers agree** on a URL unless it is of one of the three kinds. -/
theorem agree_iff (crate : UrlCrate site) (url : String) :
    Agree site url ↔
      ¬ OtherSpelling crate url ∧ ¬ DefaultPort crate url ∧ ¬ BehindBackslash crate url := by
  constructor
  · intro hagree
    have hmanaged : ∀ {host port}, crate.Reads url host port →
        (∃ cut : Cut (trim url.toList), NamesLoopback cut.hostport) →
        host.isLoopback = true ∧ port ≠ 80 := by
      rintro host port hreads ⟨cut, hnames⟩
      have hparse := crate.parseUrl_of_reads hreads
      have ⟨address, hread, _, hport, _⟩ := hreads
      obtain ⟨host', port', hreads', hloop, h80⟩ := (crate.managed_iff url).1 <|
        hagree.managed_of_allows _ address hparse rfl hread (by rw [hport]; exact nofun)
          (cut.allows_iff.2 hnames)
      obtain ⟨rfl, rfl⟩ := hreads.unique hreads'
      exact ⟨hloop, h80⟩
    refine ⟨?_, ?_, ?_⟩
    · rintro ⟨host, port, hreads, hloop, h80, hnames⟩
      obtain ⟨target, htarget⟩ := (crate.managed_iff url).2 ⟨host, port, hreads, hloop, h80⟩
      rcases allows_cases (hagree.allows_of_managed target htarget).1 with hwss | ⟨cut, hcut⟩
      · exact hreads.not_wss hwss
      · exact hnames cut hcut
    · rintro ⟨host, hreads, hcut⟩
      exact (hmanaged hreads hcut).2 rfl
    · rintro ⟨host, port, hreads, hremote, cut, hnames, -⟩
      rw [(hmanaged hreads ⟨cut, hnames⟩).1] at hremote
      cases hremote
  · rintro ⟨hspelling, hport, hbackslash⟩
    constructor
    · intro target htarget
      obtain ⟨host, port, hreads, hloop, h80⟩ := (crate.managed_iff url).1 ⟨target, htarget⟩
      have hallows : websocketUrlAllowsAuthToken url = true := by
        by_contra h
        exact hspelling ⟨host, port, hreads, hloop, h80, fun cut hcut => h (cut.allows_iff.2 hcut)⟩
      refine ⟨hallows, fun http token hrefused => ?_⟩
      rw [(parseManagedWsTarget_eq_some htarget).1, buildWsRequest_refused_iff, hallows] at hrefused
      cases hrefused
    · rintro ⟨scheme, host, port⟩ address hparse rfl hread hwritten hallows
      obtain ⟨written, hwritten⟩ := Option.ne_none_iff_exists'.1 hwritten
      obtain ⟨host, rfl, hreads⟩ := crate.reads_of_parseUrl hparse hread hwritten
      refine (crate.managed_iff url).2 ⟨host, written, hreads, ?_, ?_⟩
      all_goals
        rcases allows_cases hallows with hwss | ⟨cut, hnames⟩
        · exact absurd hwss hreads.not_wss
      · by_cases hback : '\\' ∈ cut.userinfo
        · by_contra hremote
          rw [Bool.not_eq_true] at hremote
          exact hbackslash ⟨host, written, hreads, hremote, cut, hnames, hback⟩
        · exact cut.loopback_of_reads hnames hback hreads
      · rintro rfl
        exact hport ⟨host, hreads, cut, hnames⟩

/-! ## A crate that knows five hosts -/

theorem ascii_localhost : ∀ c ∈ "localhost".toList, c.toNat < 128 := fun c hc =>
  of_decide_eq_true (List.all_eq_true (p := fun c => decide (c.toNat < 128)).1 rfl c hc)

/-- The hosts of the tests of the source, and one more address of this machine. -/
def standardHost (text : List Char) : Option Host :=
  if text = "127.0.0.1".toList then some (.ipv4 .localhost)
  else if text = "127.0.0.2".toList then some (.ipv4 ⟨127, 0, 0, 2⟩)
  else if text = "203.0.113.10".toList then some (.ipv4 ⟨203, 0, 113, 10⟩)
  else if text = "localhost".toList then some (.domain "localhost" ascii_localhost)
  else if text = "[::1]".toList then some (.ipv6 .localhost)
  else none

def standardParse (address : Whatwg.Address) : Option ParsedUrl :=
  if address.scheme = "ws".toList then
    (standardHost (toAsciiLowercase address.host)).map fun host =>
      ⟨"ws", some host, address.port.filter (· ≠ 80)⟩
  else none

def standardSite : Surroundings where
  parseUrl url :=
    match (Whatwg.read url.toList).bind standardParse with
    | some parsed => .ok parsed
    | none => .error "invalid URL"
  tempDir := "/tmp"

theorem toAsciiLowercase_idem (s : List Char) :
    toAsciiLowercase (toAsciiLowercase s) = toAsciiLowercase s := by
  have hidem : ∀ c : Char, c.toLower.toLower = c.toLower := fun c => by
    rw [← Char.toNat_inj, toNat_toLower, toNat_toLower]
    split
    · rw [if_neg (by omega)]
    · rfl
  rw [toAsciiLowercase, toAsciiLowercase, List.map_map]
  exact List.map_congr_left fun c _ => hidem c

theorem standardHost_bracket {text : List Char} {host : Host}
    (h : standardHost (toAsciiLowercase ('[' :: text)) = some host) :
    ∃ address, text = address ++ [']'] ∧ ']' ∉ address ∧ ':' ∈ address := by
  have hopen : toAsciiLowercase ('[' :: text) = '[' :: toAsciiLowercase text := rfl
  rw [hopen, standardHost, if_neg (by simp), if_neg (by simp), if_neg (by simp),
    if_neg (by simp)] at h
  split at h
  · rename_i htext
    have hlower : toAsciiLowercase text = [':', ':', '1', ']'] := (List.cons.inj htext).2
    rw [toAsciiLowercase_eq_iff rfl] at hlower
    exact ⟨"::1".toList, hlower, by decide, by decide⟩
  · cases h

/-- It has the properties that are asked of the crate. -/
def standardCrate : UrlCrate standardSite where
  parseHost text := standardHost (toAsciiLowercase text)
  parseUrl_iff url host port := by
    show (match (Whatwg.read url.toList).bind standardParse with
      | some parsed => Except.ok parsed
      | none => .error "invalid URL") = _ ↔ _
    match Whatwg.read url.toList with
    | none => exact iff_of_false nofun fun ⟨_, _, h, _⟩ => nomatch h
    | some address =>
      rw [Option.bind_some, standardParse]
      by_cases hscheme : address.scheme = "ws".toList
      · rw [if_pos hscheme]
        match hhost : standardHost (toAsciiLowercase address.host) with
        | none =>
          refine iff_of_false nofun ?_
          rintro ⟨_, parsed, heq, -, hparsed, -⟩
          cases heq
          rw [hhost] at hparsed
          cases hparsed
        | some parsed =>
          constructor
          · intro h
            cases h
            exact ⟨address, parsed, rfl, hscheme, hhost, rfl, rfl⟩
          · rintro ⟨_, parsed', heq, -, hparsed, rfl, rfl⟩
            cases heq
            rw [hhost] at hparsed
            cases hparsed
            rfl
      · rw [if_neg hscheme]
        refine iff_of_false nofun ?_
        rintro ⟨_, _, heq, hws, -⟩
        cases heq
        exact hscheme hws
  parseHost_lower text := congrArg standardHost (toAsciiLowercase_idem text)
  parseHost_quad := rfl
  parseHost_localhost := ⟨ascii_localhost, rfl⟩
  parseHost_colons := rfl
  parseHost_bracket _ _ h := standardHost_bracket h

/-- Besides the spelling, the port that is dropped and the backslash that ends an authority. -/
example : DefaultPort standardCrate "ws://localhost:80" ∧
    BehindBackslash standardCrate "ws://203.0.113.10:4222\\@localhost" :=
  ⟨⟨.domain "localhost" ascii_localhost, ⟨_, rfl, rfl, rfl, rfl⟩,
      ⟨"ws".toList, [], "localhost:80".toList, [], rfl, rfl, .inl rfl, by decide,
        eq_false_of_any rfl, by simp⟩,
      "localhost".toList, ":80".toList, rfl, .inl ⟨by decide, by simp⟩⟩,
    .ipv4 ⟨203, 0, 113, 10⟩, 4222, ⟨_, rfl, rfl, rfl, rfl⟩, rfl,
      ⟨"ws".toList, "203.0.113.10:4222\\@".toList, "localhost".toList, [], rfl, rfl,
        .inr ⟨"203.0.113.10:4222\\".toList, rfl⟩, by decide, eq_false_of_any rfl, by simp⟩,
      ⟨"localhost".toList, [], rfl, .inl ⟨by decide, by simp⟩⟩, by decide⟩

/-- Blanks around a URL and the case of its letters do not part the answers. -/
theorem agree_localhost : Agree standardSite " WS://user@LocalHost:4222/ " := by
  have hread : Whatwg.read " WS://user@LocalHost:4222/ ".toList =
      some ⟨"ws".toList, "LocalHost".toList, some 4222⟩ := rfl
  let cut : Cut (trim " WS://user@LocalHost:4222/ ".toList) :=
    ⟨"WS".toList, "user@".toList, "LocalHost:4222".toList, ['/'], rfl, rfl,
      .inr ⟨"user".toList, rfl⟩, by decide, eq_false_of_any rfl, by simp [isAuthorityEnd]⟩
  have hnames : NamesLoopback cut.hostport :=
    ⟨"LocalHost".toList, ":4222".toList, rfl, .inl ⟨by decide, by simp⟩⟩
  refine (agree_iff standardCrate _).2 ⟨?_, ?_, ?_⟩
  · rintro ⟨_, _, _, _, _, hno⟩
    exact hno cut hnames
  · rintro ⟨_, ⟨address, hread', _, hport, _⟩, _⟩
    rw [hread] at hread'
    cases hread'
    cases hport
  · rintro ⟨_, _, _, _, cut, _, hback⟩
    have hmem : '\\' ∈ trim " WS://user@LocalHost:4222/ ".toList := by
      rw [cut.text_eq]
      simp [hback]
    exact absurd hmem (by decide)

/-- **An address of this machine is managed and refused**: every request that is to carry a token
there fails, the probe's first. -/
theorem managed_and_refused :
    (∃ target, parseManagedWsTarget standardSite "ws://127.0.0.2:4222" = .ok (some target)) ∧
    websocketUrlAllowsAuthToken "ws://127.0.0.2:4222" = false ∧
    (∀ http token,
      buildWsRequest http "ws://127.0.0.2:4222" (some token) = .error tokenRefusal) ∧
    ¬ Agree standardSite "ws://127.0.0.2:4222" := by
  have hmanaged : ∃ target,
      parseManagedWsTarget standardSite "ws://127.0.0.2:4222" = .ok (some target) :=
    exists_managed (show standardSite.parseUrl "ws://127.0.0.2:4222" =
      .ok ⟨"ws", some (.ipv4 ⟨127, 0, 0, 2⟩), some 4222⟩ from rfl) rfl
  have hrefused : websocketUrlAllowsAuthToken "ws://127.0.0.2:4222" = false := rfl
  refine ⟨hmanaged, hrefused, fun http token => ?_, fun hagree => ?_⟩
  · exact (buildWsRequest_refused_iff http _ token).2 hrefused
  · obtain ⟨target, htarget⟩ := hmanaged
    have hallows := (hagree.allows_of_managed target htarget).1
    rw [hrefused] at hallows
    exact absurd hallows Bool.false_ne_true

end WsDaemon
end CodexSdk
