import CodexSdk.Transport.Loopback

/-!
# A target written and read again

`WsTarget` writes its endpoint much as the `url` crate does: a domain as it is, an IPv6 address in
brackets.  `UrlCrate.Canonical.reads` says that what the crate has written is read as the same host
and port, whichever of the three kinds the host is.

Two things keep an endpoint from going around.  The port is asked of the parsed URL, and the crate
has dropped it when it is 80.  And the address between the brackets is written by the standard
library, which ends an IPv4-mapped one with the IPv4 address, where the crate keeps to hexadecimal.
There is nothing else (`roundTrips_iff`).
-/

set_option autoImplicit false

namespace CodexSdk
namespace WsDaemon

open Text

/-! ## Canonical hosts -/

/-- The standard's forbidden domain code points. -/
def isForbidden (c : Char) : Bool :=
  Whatwg.isC0ControlOrSpace c ||
    ['#', '%', '/', ':', '<', '>', '?', '@', '[', '\\', ']', '^', '|', '\x7f'].contains c

/-- What the crate documents of the domains its host parser returns. -/
structure UrlCrate.Domains {site : Surroundings} (crate : UrlCrate site) : Prop where
  ne_empty (text : List Char) (name : String) (ascii : ∀ c ∈ name.toList, c.toNat < 128)
    (h : crate.parseHost text = some (.domain name ascii)) : name ≠ ""
  plain (text : List Char) (name : String) (ascii : ∀ c ∈ name.toList, c.toNat < 128)
    (h : crate.parseHost text = some (.domain name ascii)) :
    ∀ c ∈ name.toList, isForbidden c = false

/-- The IPv6 serializer of the URL Standard: the longest run of at least two zeros is left out, and
nothing is written with dots. -/
def Ipv6Addr.serialize (ip : Ipv6Addr) : String :=
  let zeros := longestZeros 0 ⟨0, 0⟩ ⟨0, 0⟩ ip.segments
  if 1 < zeros.len then
    hexSegments (ip.segments.take zeros.start) ++ "::" ++
      hexSegments (ip.segments.drop (zeros.start + zeros.len))
  else hexSegments ip.segments

/-- The `Display` of `url::Host`. -/
def Host.display : Host → String
  | .domain name _ => name
  | .ipv4 ip => ip.toString
  | .ipv6 ip => "[" ++ ip.serialize ++ "]"

/-- The host is an IPv6 address that stands for an IPv4 one. -/
def Host.isIpv4Mapped : Host → Bool
  | .ipv6 ip => ip.toIpv4Mapped.isSome
  | .domain _ _ | .ipv4 _ => false

/-- `name` spells `host` the way the crate itself does. -/
structure UrlCrate.Canonical {site : Surroundings} (crate : UrlCrate site) (name : String)
    (host : Host) : Prop where
  parseHost_eq : crate.parseHost name.toList = some host
  display_eq : host.display = name

/-! ## The characters of a host -/

/-- What an address consists of. -/
def isAddressChar (c : Char) : Bool := Whatwg.isSchemeChar c || c == ':'

theorem all_toDigits {p : Char → Bool} (hdigit : ∀ d < 16, p (Nat.digitChar d) = true) {b : Nat}
    (n : Nat) (hb : 1 < b) (hb16 : b ≤ 16) : (Nat.toDigits b n).all p = true := by
  induction n using Nat.strongRecOn with
  | ind n ih =>
    rw [Nat.toDigits_eq_if hb]
    split
    · rw [List.all_cons, List.all_nil, hdigit n (by omega)]
      rfl
    · have hlast : n % b < 16 := Nat.lt_of_lt_of_le (Nat.mod_lt n (by omega)) hb16
      rw [List.all_append, ih (n / b) (Nat.div_lt_self (by omega) hb), List.all_cons, List.all_nil,
        hdigit _ hlast]
      rfl

theorem Ipv4Addr.all_toString (ip : Ipv4Addr) :
    ip.toString.toList.all Whatwg.isSchemeChar = true := by
  have hbyte : ∀ n : Nat, n.repr.toList.all Whatwg.isSchemeChar = true := by
    intro n
    rw [Nat.toList_repr]
    exact all_toDigits (by decide) n (by omega) (by omega)
  have hdot : ".".toList.all Whatwg.isSchemeChar = true := rfl
  have htext : ip.toString = ip.a.toNat.repr ++ "." ++ ip.b.toNat.repr ++ "." ++
    ip.c.toNat.repr ++ "." ++ ip.d.toNat.repr := rfl
  rw [htext]
  simp only [String.toList_append, List.all_append, hbyte, hdot, Bool.and_self]

theorem all_hexSegments {p : Char → Bool} (hdigit : ∀ d < 16, p (Nat.digitChar d) = true)
    (hcolon : p ':' = true) (segments : List UInt16) :
    (hexSegments segments).toList.all p = true := by
  have hsegment : ∀ segment, (hexSegment segment).toList.all p = true := by
    intro segment
    rw [hexSegment, String.toList_ofList]
    exact all_toDigits hdigit _ (by omega) (by omega)
  have hsep : ":".toList.all p = true := by
    show (p ':' && true) = true
    rw [hcolon]
    rfl
  rw [hexSegments, String.toList_intercalate]
  induction segments with
  | nil => rfl
  | cons segment segments ih =>
    rcases segments with _ | ⟨next, segments⟩
    · rw [List.map_singleton, List.map_singleton, List.intercalate_singleton]
      exact hsegment segment
    · rw [List.map_cons, List.map_cons] at ih
      rw [List.map_cons, List.map_cons, List.map_cons, List.map_cons, List.intercalate_cons_cons,
        List.all_append, List.all_append, hsegment, hsep, ih]
      rfl

/-- The serializer writes hexadecimal digits and colons only. -/
theorem Ipv6Addr.all_serialize {p : Char → Bool} (hdigit : ∀ d < 16, p (Nat.digitChar d) = true)
    (hcolon : p ':' = true) (ip : Ipv6Addr) : ip.serialize.toList.all p = true := by
  have hzeros : "::".toList.all p = true := by
    show (p ':' && (p ':' && true)) = true
    rw [hcolon]
    rfl
  rw [serialize]
  split
  · rw [String.toList_append, String.toList_append, List.all_append, List.all_append,
      all_hexSegments hdigit hcolon, hzeros, all_hexSegments hdigit hcolon]
    rfl
  · exact all_hexSegments hdigit hcolon _

theorem Ipv4Addr.dot_mem_toString (ip : Ipv4Addr) : '.' ∈ ip.toString.toList := by
  have htext : ip.toString = ip.a.toNat.repr ++ "." ++ ip.b.toNat.repr ++ "." ++
    ip.c.toNat.repr ++ "." ++ ip.d.toNat.repr := rfl
  simp [htext]

/-- The standard library and the URL Standard write the same addresses alike, except for those that
stand for an IPv4 one. -/
theorem Ipv6Addr.toString_eq_serialize_iff (ip : Ipv6Addr) :
    ip.toString = ip.serialize ↔ ip.toIpv4Mapped = none := by
  rw [Ipv6Addr.toString]
  cases hmapped : ip.toIpv4Mapped with
  | none => exact iff_of_true rfl rfl
  | some ipv4 =>
    refine iff_of_false (fun heq => ?_) (Option.some_ne_none ipv4)
    have hall := ip.all_serialize (p := (· ≠ '.')) (by decide) rfl
    rw [← heq, String.toList_append, List.all_append, Bool.and_eq_true] at hall
    exact of_decide_eq_true (List.all_eq_true.1 hall.2 _ ipv4.dot_mem_toString) rfl

example : let ip : Ipv6Addr := ⟨[0, 0, 0, 0, 0, 0xffff, 0x7f00, 1], rfl⟩
    ip.serialize = "::ffff:7f00:1" ∧ ip.toString = "::ffff:127.0.0.1" := by
  constructor <;> rfl

/-- The authority is written in the spelling of the crate, unless the address is IPv4-mapped. -/
theorem WsTarget.hostAuthority_eq_iff (target : WsTarget) :
    target.hostAuthority = target.host.display ↔ target.host.isIpv4Mapped = false := by
  rcases target with ⟨⟨name, ascii⟩ | ip | ip, port⟩
  · exact iff_of_true rfl rfl
  · exact iff_of_true rfl rfl
  · show "[" ++ ip.toString ++ "]" = "[" ++ ip.serialize ++ "]" ↔ ip.toIpv4Mapped.isSome = false
    rw [String.append_left_inj, String.append_right_inj, ip.toString_eq_serialize_iff,
      Option.isSome_eq_false_iff, Option.isNone_iff_eq_none]

theorem WsTarget.url_eq_iff (target : WsTarget) :
    target.url = s!"ws://{target.host.display}:{target.port}" ↔
      target.host.isIpv4Mapped = false := by
  rw [WsTarget.url, ← hostAuthority_eq_iff]
  show "ws://" ++ target.hostAuthority ++ ":" ++ target.port.repr =
    "ws://" ++ target.host.display ++ ":" ++ target.port.repr ↔ _
  rw [String.append_left_inj, String.append_left_inj, String.append_right_inj]

/-! ## What is written is read -/

/-- A host in the spelling of the crate: nothing in it ends the authority, and a colon is inside of
brackets. -/
structure PlainHost (name : List Char) : Prop where
  ne_nil : name ≠ []
  visible : ∀ c ∈ name,
    Whatwg.isC0ControlOrSpace c = false ∧ Whatwg.endsAuthority c = false ∧ c ≠ '@'
  split (rest : List Char) : Whatwg.splitHost false (name ++ ':' :: rest) = (name, rest)

theorem plainHost_of_bare {name : List Char} (hne : name ≠ []) (h : ∀ c ∈ name,
    Whatwg.isC0ControlOrSpace c = false ∧ Whatwg.endsAuthority c = false ∧
      c ≠ ':' ∧ c ≠ '[' ∧ c ≠ ']' ∧ c ≠ '@') : PlainHost name := by
  refine ⟨hne, fun c hc => ?_, fun rest => ?_⟩
  · obtain ⟨hvisible, hends, -, -, -, hat⟩ := h c hc
    exact ⟨hvisible, hends, hat⟩
  · rw [Whatwg.splitHost_append _ fun c hc => ?_, Whatwg.splitHost_colon, List.append_nil]
    obtain ⟨-, -, hcolon, hopen, hclose, -⟩ := h c hc
    exact ⟨fun heq => absurd heq hcolon, hopen, hclose⟩

theorem plain_of_isForbidden {c : Char} (h : isForbidden c = false) :
    Whatwg.isC0ControlOrSpace c = false ∧ Whatwg.endsAuthority c = false ∧
      c ≠ ':' ∧ c ≠ '[' ∧ c ≠ ']' ∧ c ≠ '@' := by
  rw [isForbidden, Bool.or_eq_false_iff] at h
  obtain ⟨hvisible, hmem⟩ := h
  simp only [List.contains_eq_mem, decide_eq_false_iff_not, List.mem_cons, List.not_mem_nil,
    or_false, not_or] at hmem
  obtain ⟨hhash, -, hslash, hcolon, -, -, hquery, hat, hopen, hback, hclose, -⟩ := hmem
  refine ⟨hvisible, ?_, hcolon, hopen, hclose, hat⟩
  simp only [Whatwg.endsAuthority, List.contains_eq_mem, decide_eq_false_iff_not, List.mem_cons,
    List.not_mem_nil, or_false, not_or]
  exact ⟨hslash, hback, hquery, hhash⟩

theorem plain_of_isAddressChar {c : Char} (h : isAddressChar c = true) :
    Whatwg.isC0ControlOrSpace c = false ∧ Whatwg.endsAuthority c = false ∧
      c ≠ '[' ∧ c ≠ ']' ∧ c ≠ '@' := by
  rw [isAddressChar, Bool.or_eq_true, beq_iff_eq] at h
  rcases h with h | rfl
  · obtain ⟨hvisible, hends, -, hopen, hclose, hat⟩ := Whatwg.plain_of_isSchemeChar h
    exact ⟨hvisible, hends, hopen, hclose, hat⟩
  · decide

theorem plainHost_bracketed {address : List Char} (h : address.all isAddressChar = true) :
    PlainHost ('[' :: (address ++ [']'])) := by
  have hplain := fun c hc => plain_of_isAddressChar (List.all_eq_true.1 h c hc)
  refine ⟨List.cons_ne_nil _ _, fun c hc => ?_, fun rest => ?_⟩
  · rw [List.mem_cons, List.mem_append, List.mem_singleton] at hc
    rcases hc with rfl | hc | rfl
    · decide
    · obtain ⟨hvisible, hends, -, -, hat⟩ := hplain c hc
      exact ⟨hvisible, hends, hat⟩
    · decide
  · rw [List.cons_append, List.append_assoc, List.singleton_append, Whatwg.splitHost_open,
      Whatwg.splitHost_append _ fun c hc => ?_, Whatwg.splitHost_close, Whatwg.splitHost_colon]
    obtain ⟨-, -, hopen, hclose, -⟩ := hplain c hc
    exact ⟨fun _ => rfl, hopen, hclose⟩

section Canonical

variable {site : Surroundings} {crate : UrlCrate site} {name : String} {host : Host} {port : Nat}

theorem UrlCrate.Canonical.plainHost (domains : crate.Domains) (h : crate.Canonical name host) :
    PlainHost name.toList := by
  obtain ⟨hparse, rfl⟩ := h
  rcases host with ⟨domain, ascii⟩ | ip | ip
  · refine plainHost_of_bare (fun hnil => ?_) fun c hc =>
      plain_of_isForbidden (domains.plain _ domain ascii hparse c hc)
    exact domains.ne_empty _ domain ascii hparse (String.toList_eq_nil_iff.1 hnil)
  · have hplain := List.all_eq_true.1 ip.all_toString
    refine plainHost_of_bare (fun hnil => ?_) fun c hc =>
      Whatwg.plain_of_isSchemeChar (hplain c hc)
    have hdot : '.' ∈ (Host.display (.ipv4 ip)).toList := ip.dot_mem_toString
    rw [hnil] at hdot
    exact absurd hdot List.not_mem_nil
  · have htext : (Host.display (.ipv6 ip)).toList = '[' :: (ip.serialize.toList ++ [']']) := by
      rw [Host.display, String.toList_append, String.toList_append]
      rfl
    rw [htext]
    exact plainHost_bracketed (ip.all_serialize (by decide) rfl)

/-- **What is written is read**: the crate sees the host and the port that were written. -/
theorem UrlCrate.Canonical.reads (domains : crate.Domains) (h : crate.Canonical name host)
    (hport : port < 65536) : crate.Reads s!"ws://{name}:{port}" host port := by
  obtain ⟨hne, hvisible, hsplit⟩ := h.plainHost domains
  obtain ⟨c, rest, hname⟩ := List.exists_cons_of_ne_nil hne
  have htext : (s!"ws://{name}:{port}").toList =
      'w' :: ['s'] ++ ':' :: '/' :: '/' :: (name.toList ++ ':' :: Nat.toDigits 10 port) := by
    show (String.toList ("ws://" ++ name ++ ":" ++ port.repr)) = _
    rw [String.toList_append, String.toList_append, String.toList_append, Nat.toList_repr,
      List.append_assoc, List.append_assoc]
    rfl
  have hread : Whatwg.read (s!"ws://{name}:{port}").toList =
      some ⟨"ws".toList, name.toList, some port⟩ := by
    rw [htext, hname]
    rw [hname] at hvisible hsplit
    exact Whatwg.read_pieces rfl (List.all_eq_true.1 rfl) hvisible hsplit hport
  exact ⟨_, hread, rfl, rfl, h.parseHost_eq⟩

/-- A loopback domain is spelled in lower case. -/
theorem UrlCrate.Canonical.eq_localhost {domain : String}
    {ascii : ∀ c ∈ domain.toList, c.toNat < 128} (h : crate.Canonical name (.domain domain ascii))
    (hlocal : eqIgnoreAsciiCase domain "localhost" = true) : name = "localhost" := by
  obtain ⟨hparse, rfl⟩ := h
  have hlower : toAsciiLowercase domain.toList = "localhost".toList := beq_iff_eq.1 hlocal
  obtain ⟨ascii', hlocalhost⟩ := crate.parseHost_localhost
  have hparse' : crate.parseHost domain.toList = some (.domain domain ascii) := hparse
  rw [← crate.parseHost_lower, hlower, hlocalhost] at hparse'
  rcases Option.some.inj hparse' with ⟨rfl⟩
  rfl

/-! ## The way around -/

/-- The host of the URL a managed server listens on. -/
def listenName (name : String) : String := if name = "localhost" then "127.0.0.1" else name

/-- `ws://name:port` is a target with this host and port, and is what the target is written as. -/
structure RoundTrips (site : Surroundings) (name : String) (host : Host) (port : Nat) : Prop where
  parse (label : String) : ∃ target,
    WsTarget.parse site label s!"ws://{name}:{port}" = .ok target ∧
    target.host = host ∧ target.port = port ∧ target.url = s!"ws://{name}:{port}" ∧
    WsTarget.parse site label target.url = .ok target
  managed (hloop : host.isLoopback = true) : ∃ target,
    parseManagedWsTarget site s!"ws://{name}:{port}" = .ok (some target) ∧
    target.listenUrl = s!"ws://{listenName name}:{port}"

/-- What the code makes of a URL whose port the crate has kept. -/
theorem WsTarget.parse_of_parseUrl {url : String}
    (h : site.parseUrl url = .ok ⟨"ws", some host, some port⟩) (label : String) :
    WsTarget.parse site label url = .ok ⟨host, port⟩ := by
  rw [WsTarget.parse, h]
  rfl

theorem WsTarget.parse_of_no_port {url : String}
    (h : site.parseUrl url = .ok ⟨"ws", some host, none⟩) (label : String) :
    WsTarget.parse site label url =
      .error (.config s!"websocket {label} must include explicit port: `{url}`") := by
  rw [WsTarget.parse, h]
  rfl

/-- `localhost` is the one name that changes. -/
theorem UrlCrate.Canonical.normalized_url (h : crate.Canonical name host)
    (hmapped : host.isIpv4Mapped = false) (hloop : host.isLoopback = true) :
    (WsTarget.mk host port).normalized.url = s!"ws://{listenName name}:{port}" := by
  obtain ⟨ascii', hlocalhost⟩ := crate.parseHost_localhost
  have hkeep : (∀ domain ascii, host ≠ .domain domain ascii) → listenName name = name := by
    intro hno
    refine if_neg fun hname => ?_
    have hparse := h.parseHost_eq
    rw [hname, hlocalhost] at hparse
    exact hno _ ascii' (Option.some.inj hparse).symm
  rcases host with ⟨domain, ascii⟩ | ip | ip
  · have hlocal : eqIgnoreAsciiCase domain "localhost" = true := hloop
    have hnormalized : (WsTarget.mk (.domain domain ascii) port).normalized =
      ⟨.ipv4 .localhost, port⟩ := if_pos hlocal
    rw [hnormalized, h.eq_localhost hlocal]
    rfl
  · rw [hkeep fun _ _ => Host.noConfusion, ← h.display_eq]
    rfl
  · rw [hkeep fun _ _ => Host.noConfusion, ← h.display_eq]
    exact (WsTarget.url_eq_iff ⟨.ipv6 ip, port⟩).2 hmapped

/-- **The endpoint goes around unless its port is 80**, the one the crate takes for no port, or its
host is an IPv4-mapped address, which the code writes in another way than the crate. -/
theorem roundTrips_iff (crate : UrlCrate site) (domains : crate.Domains)
    (hcanonical : crate.Canonical name host) (hport : port < 65536) :
    RoundTrips site name host port ↔ port ≠ 80 ∧ host.isIpv4Mapped = false := by
  have hparse := crate.parseUrl_of_reads (hcanonical.reads domains hport)
  have hurl : (WsTarget.mk host port).url = s!"ws://{name}:{port}" ↔ host.isIpv4Mapped = false := by
    rw [← WsTarget.url_eq_iff ⟨host, port⟩, hcanonical.display_eq]
  constructor
  · rintro ⟨hround, -⟩
    obtain ⟨target, htarget, rfl, rfl, htext, -⟩ := hround ""
    refine ⟨fun h80 => ?_, hurl.1 htext⟩
    rw [if_pos h80] at hparse
    rw [WsTarget.parse_of_no_port hparse] at htarget
    cases htarget
  · rintro ⟨h80, hmapped⟩
    rw [if_neg h80] at hparse
    have hsame := hurl.2 hmapped
    refine ⟨fun label => ⟨⟨host, port⟩, WsTarget.parse_of_parseUrl hparse label, rfl, rfl, hsame,
      ?_⟩, fun hloop => ?_⟩
    · rw [hsame]
      exact WsTarget.parse_of_parseUrl hparse label
    · obtain ⟨target, htarget, hlisten⟩ := exists_listenUrl hparse hloop
      exact ⟨target, htarget, hlisten.trans (hcanonical.normalized_url hmapped hloop)⟩

end Canonical

theorem standardDomains : standardCrate.Domains := by
  have hdomain : ∀ text name ascii, standardCrate.parseHost text = some (.domain name ascii) →
      name = "localhost" := by
    intro text name ascii h
    have hstandard : standardHost (toAsciiLowercase text) = some (.domain name ascii) := h
    rw [standardHost] at hstandard
    split_ifs at hstandard
    all_goals cases hstandard
    rfl
  refine ⟨fun text name ascii h => ?_, fun text name ascii h => ?_⟩
  · rw [hdomain text name ascii h]
    decide
  · rw [hdomain text name ascii h]
    exact eq_false_of_any rfl

/-- An IPv6 address goes around in its brackets. -/
theorem roundTrips_colons : RoundTrips standardSite "[::1]" (.ipv6 .localhost) 4222 := by
  have hcanonical : standardCrate.Canonical "[::1]" (.ipv6 .localhost) := ⟨rfl, rfl⟩
  have hport : 4222 < 65536 := by decide
  exact (roundTrips_iff standardCrate standardDomains hcanonical hport).2 ⟨by decide, rfl⟩

/-- **The port 80 is written and said to be missing**, by both parsers. -/
theorem port_80_refused :
    standardCrate.Canonical "127.0.0.1" (.ipv4 .localhost) ∧
    WsTarget.parse standardSite "listen_url" "ws://127.0.0.1:80" = .error
      (.config "websocket listen_url must include explicit port: `ws://127.0.0.1:80`") ∧
    parseManagedWsTarget standardSite "ws://127.0.0.1:80" = .error
      (.config "loopback websocket URL must include explicit port: `ws://127.0.0.1:80`") ∧
    ¬ RoundTrips standardSite "127.0.0.1" (.ipv4 .localhost) 80 := by
  have hrefused : WsTarget.parse standardSite "listen_url" "ws://127.0.0.1:80" = .error
      (.config "websocket listen_url must include explicit port: `ws://127.0.0.1:80`") := rfl
  refine ⟨⟨rfl, rfl⟩, hrefused, rfl, fun hround => ?_⟩
  obtain ⟨target, htarget, -⟩ := hround.parse "listen_url"
  have hcontra := hrefused.symm.trans htarget
  cases hcontra

end WsDaemon
end CodexSdk
