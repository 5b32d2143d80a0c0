import CodexSdk.Text

/-!
# The address in a URL

How the URL Standard reads a URL whose scheme is special (`ws`, `wss`, `http` and `https`), from
its start to the end of the authority: the scheme, the text of the host, and the port.

The standard is generous.  Controls and blanks around the URL are dropped, and tabs and newlines
wherever they stand; a backslash is as good as a slash; and any number of slashes, none included,
may stand in front of the authority.  What the host text means is the business of the host parser,
which is not part of this file.

`read_of_blanks`, `splitScheme_input` and `hostport_authority` find the pieces of a text that was
put together from them, and `mem_authority_end` says how far the authority reaches at most.
-/

set_option autoImplicit false

namespace Whatwg

open Text

/-! ## The parser -/

def isC0ControlOrSpace (c : Char) : Bool := c.toNat ≤ 0x20

def isTabOrNewline (c : Char) : Bool := ['\t', '\n', '\r'].contains c

def isSchemeChar (c : Char) : Bool := c.isAlphanum || ['+', '-', '.'].contains c

def isSlash (c : Char) : Bool := ['/', '\\'].contains c

def endsAuthority (c : Char) : Bool := ['/', '\\', '?', '#'].contains c

/-- The text without what the parser passes over. -/
def input (s : List Char) : List Char :=
  ((s.dropWhile isC0ControlOrSpace).rdropWhile isC0ControlOrSpace).filter (!isTabOrNewline ·)

/-- The scheme, lowered, and what follows its colon. -/
def splitScheme (s : List Char) : Option (List Char × List Char) :=
  match s with
  | [] => none
  | c :: _ =>
    if c.isAlpha then
      match s.dropWhile isSchemeChar with
      | ':' :: rest => some (toAsciiLowercase (s.takeWhile isSchemeChar), rest)
      | _ => none
    else none

def authority (s : List Char) : List Char := firstSegment endsAuthority (s.dropWhile isSlash)

/-- What follows the user information. -/
def hostport (authority : List Char) : List Char :=
  match rsplitOnce '@' authority with
  | some (_, hostport) => hostport
  | none => authority

/-- The host and the text of the port, at the first colon outside brackets. -/
def splitHost : Bool → List Char → List Char × List Char
  | _, [] => ([], [])
  | inside, c :: s =>
    if c = ':' ∧ inside = false then ([], s)
    else
      let (host, port) := splitHost (if c = '[' then true else if c = ']' then false else inside) s
      (c :: host, port)

def decimal (digits : List Char) : Nat :=
  digits.foldl (fun n c => 10 * n + (c.toNat - '0'.toNat)) 0

/-- An empty port is none. -/
def readPort (digits : List Char) : Option (Option Nat) :=
  if digits = [] then some none
  else if digits.all Char.isDigit && decimal digits < 65536 then some (some (decimal digits))
  else none

structure Address where
  scheme : List Char
  host : List Char
  port : Option Nat

/-- `none` is a text that is no URL of a special scheme, whatever its host is. -/
def read (s : List Char) : Option Address := do
  let (scheme, rest) ← splitScheme (input s)
  let (host, port) := splitHost false (hostport (authority rest))
  if host = [] then none
  else return ⟨scheme, host, ← readPort port⟩

/-- Any slashes will do, and any case. -/
example : read " WS:\\\\User@LocalHost:80\\x ".toList =
    some ⟨"ws".toList, "LocalHost".toList, some 80⟩ := by rfl

/-- What a text was read as. -/
theorem read_cases {s : List Char} {address : Address} (h : read s = some address) :
    ∃ rest, splitScheme (input s) = some (address.scheme, rest) ∧
      address.host = (splitHost false (hostport (authority rest))).1 ∧
      readPort (splitHost false (hostport (authority rest))).2 = some address.port := by
  obtain ⟨⟨scheme, rest⟩, hsplit, h⟩ := Option.bind_eq_some_iff.1 h
  simp only at h
  split at h
  · cases h
  · obtain ⟨port, hport, heq⟩ := Option.bind_eq_some_iff.1 h
    cases heq
    exact ⟨rest, hsplit, rfl, hport⟩

/-! ## What is passed over -/

theorem isTabOrNewline_of_visible {c : Char} (h : isC0ControlOrSpace c = false) :
    isTabOrNewline c = false := by
  simp only [isTabOrNewline, List.contains_eq_mem, decide_eq_false_iff_not, List.mem_cons,
    List.not_mem_nil, or_false]
  rintro (rfl | rfl | rfl) <;> exact absurd h (by decide)

theorem filter_visible {s : List Char} (h : ∀ c ∈ s, isC0ControlOrSpace c = false) :
    s.filter (!isTabOrNewline ·) = s :=
  List.filter_eq_self.2 fun c hc => by rw [isTabOrNewline_of_visible (h c hc), Bool.not_false]

/-- Between a visible character at the start and another one, only tabs and newlines go. -/
theorem input_append {a : List Char} {c : Char} (b : List Char)
    (hhead : ∀ x ∈ (a ++ [c]).head?, isC0ControlOrSpace x = false)
    (hc : isC0ControlOrSpace c = false) :
    input (a ++ c :: b) = (a ++ [c]).filter (!isTabOrNewline ·) ++
      (b.rdropWhile isC0ControlOrSpace).filter (!isTabOrNewline ·) := by
  have hdrop : (a ++ c :: b).dropWhile isC0ControlOrSpace = a ++ c :: b := by
    match a with
    | [] => exact List.dropWhile_cons_of_neg (by simp [hc])
    | x :: a => exact List.dropWhile_cons_of_neg (by simp [hhead x rfl])
  rw [input, hdrop, rdropWhile_append_of_last hc, ← List.filter_append, List.append_assoc,
    List.singleton_append]

/-- No scheme starts with a blank. -/
theorem splitScheme_of_blank {c : Char} (s : List Char) (h : isWhitespace c = true) :
    splitScheme (c :: s) = none := by
  refine if_neg fun halpha => ?_
  rw [isAlpha_iff] at halpha
  simp only [isWhitespace, Bool.or_eq_true, Bool.and_eq_true, decide_eq_true_eq, beq_iff_eq] at h
  omega

/-- **Blanks in front of a URL** that is read are of the kind the parser drops. -/
theorem read_of_blanks {blanks s : List Char} {address : Address}
    (hblanks : ∀ c ∈ blanks, isWhitespace c = true) (h : read (blanks ++ s) = some address) :
    read s = some address := by
  induction blanks with
  | nil => exact h
  | cons c blanks ih =>
    refine ih (fun x hx => hblanks x (List.mem_cons_of_mem _ hx)) ?_
    cases hc : isC0ControlOrSpace c with
    | true =>
      have hinput : input (c :: (blanks ++ s)) = input (blanks ++ s) := by
        rw [input, List.dropWhile_cons_of_pos hc, input]
      rwa [List.cons_append, read, hinput] at h
    | false =>
      have hinput : input ([] ++ c :: (blanks ++ s)) = _ :=
        input_append (blanks ++ s) (fun x hx => by cases hx; exact hc) hc
      have hkeep : ([] ++ [c]).filter (!isTabOrNewline ·) = [c] :=
        filter_visible fun x hx => List.mem_singleton.1 hx ▸ hc
      rw [List.cons_append, read, ← List.nil_append (c :: _), hinput, hkeep,
        List.singleton_append, splitScheme_of_blank _ (hblanks c List.mem_cons_self)] at h
      cases h

/-! ## Pieces -/

/-- A character that may stand in a scheme is none that the parser stops at. -/
theorem plain_of_isSchemeChar {c : Char} (h : isSchemeChar c = true) :
    isC0ControlOrSpace c = false ∧ endsAuthority c = false ∧
      c ≠ ':' ∧ c ≠ '[' ∧ c ≠ ']' ∧ c ≠ '@' := by
  have hrange : 32 < c.toNat ∧ c.toNat ≠ 47 ∧ c.toNat ≠ 92 ∧ c.toNat ≠ 63 ∧ c.toNat ≠ 35 ∧
      c.toNat ≠ 58 ∧ c.toNat ≠ 91 ∧ c.toNat ≠ 93 ∧ c.toNat ≠ 64 := by
    rw [isSchemeChar, Bool.or_eq_true] at h
    rcases h with h | h
    · rw [isAlphanum_iff] at h
      omega
    · simp only [List.contains_eq_mem, decide_eq_true_eq, List.mem_cons, List.not_mem_nil,
        or_false] at h
      rcases h with rfl | rfl | rfl <;> decide
  obtain ⟨hvisible, hslash, hback, hquery, hhash, hcolon, hopen, hclose, hat⟩ := hrange
  refine ⟨decide_eq_false (by omega), ?_, ?_, ?_, ?_, ?_⟩
  · simp only [endsAuthority, List.contains_eq_mem, decide_eq_false_iff_not, List.mem_cons,
      List.not_mem_nil, or_false, ← Char.toNat_inj, not_or]
    exact ⟨hslash, hback, hquery, hhash⟩
  all_goals
    rintro rfl
    contradiction

theorem isSchemeChar_toLower (c : Char) : isSchemeChar c.toLower = isSchemeChar c := by
  simp only [isSchemeChar, isAlphanum_toLower, List.contains_eq_mem, List.mem_cons,
    List.not_mem_nil, or_false, toLower_eq_iff (c := c) (d := '+') rfl,
    toLower_eq_iff (c := c) (d := '-') rfl, toLower_eq_iff (c := c) (d := '.') rfl]

theorem splitScheme_append {scheme : List Char} (rest : List Char) {c : Char}
    (hhead : c.isAlpha = true) (hscheme : ∀ x ∈ c :: scheme, isSchemeChar x = true) :
    splitScheme (c :: scheme ++ ':' :: rest) = some (toAsciiLowercase (c :: scheme), rest) := by
  have hdrop : (c :: scheme ++ ':' :: rest).dropWhile isSchemeChar = ':' :: rest := by
    rw [List.dropWhile_append_of_pos hscheme]
    rfl
  have htake : (c :: scheme ++ ':' :: rest).takeWhile isSchemeChar = c :: scheme := by
    rw [List.takeWhile_append_of_pos hscheme]
    exact List.append_nil _
  show (if c.isAlpha then _ else _) = _
  rw [if_pos hhead, hdrop, htake]
  rfl

/-- The scheme of a text that starts with one. -/
theorem splitScheme_input {scheme : List Char} (rest : List Char) {c : Char}
    (hhead : c.isAlpha = true) (hscheme : ∀ x ∈ c :: scheme, isSchemeChar x = true) :
    splitScheme (input (c :: scheme ++ ':' :: rest)) = some (toAsciiLowercase (c :: scheme),
      (rest.rdropWhile isC0ControlOrSpace).filter (!isTabOrNewline ·)) := by
  have hvisible : ∀ x ∈ c :: scheme ++ [':'], isC0ControlOrSpace x = false := by
    intro x hx
    rcases List.mem_append.1 hx with hx | hx
    · exact (plain_of_isSchemeChar (hscheme x hx)).1
    · rw [List.mem_singleton.1 hx]
      rfl
  rw [input_append rest (fun x hx => hvisible x (List.mem_of_mem_head? hx)) rfl,
    filter_visible hvisible, List.append_assoc, List.singleton_append,
    splitScheme_append _ hhead hscheme]

/-- **The host of an authority** in which no backslash comes before it: user information, which
ends in the last `@`, is cut off whole. -/
theorem hostport_authority {userinfo : List Char} {c : Char} (name rest : List Char)
    (huserinfo : userinfo = [] ∨ ∃ init, userinfo = init ++ ['@'])
    (hplain : ∀ x ∈ userinfo ++ c :: name, endsAuthority x = false)
    (hat : '@' ∉ c :: name ++ firstSegment endsAuthority rest) :
    hostport (authority ('/' :: '/' :: (userinfo ++ (c :: name ++ rest)))) =
      c :: name ++ firstSegment endsAuthority rest := by
  have hslash : ∀ x ∈ (userinfo ++ (c :: name ++ rest)).head?, isSlash x = false := by
    intro x hx
    have hmem : x ∈ userinfo ++ c :: name := by
      rcases userinfo with _ | ⟨y, userinfo⟩
      · obtain rfl := Option.some.inj hx
        exact List.mem_cons_self
      · obtain rfl := Option.some.inj hx
        exact List.mem_cons_self
    have hends := hplain x hmem
    simp only [endsAuthority, isSlash, List.contains_eq_mem, decide_eq_false_iff_not,
      List.mem_cons, List.not_mem_nil, or_false, not_or] at hends ⊢
    exact ⟨hends.1, hends.2.1⟩
  have hdrop : ('/' :: '/' :: (userinfo ++ (c :: name ++ rest))).dropWhile isSlash =
      userinfo ++ c :: name ++ rest := by
    rw [List.dropWhile_cons_of_pos rfl, List.dropWhile_cons_of_pos rfl, List.append_assoc]
    rcases hu : userinfo ++ (c :: name ++ rest) with _ | ⟨x, s⟩
    · rfl
    · exact List.dropWhile_cons_of_neg (by rw [hslash x (by rw [hu]; rfl)]; simp)
  have hseg : firstSegment endsAuthority (userinfo ++ c :: name ++ rest) =
      userinfo ++ c :: name ++ firstSegment endsAuthority rest :=
    List.takeWhile_append_of_pos fun x hx => by rw [hplain x hx]; rfl
  rw [authority, hdrop, hseg, hostport, List.append_assoc]
  rcases huserinfo with rfl | ⟨init, rfl⟩
  · rw [List.nil_append, rsplitOnce_eq_none hat]
  · rw [List.append_assoc, List.singleton_append, rsplitOnce_append init hat]

/-- What the authority has after `a` comes from `a`, or from the end of a text that ends with it. -/
theorem mem_authority_end {a tail b : List Char} {c : Char}
    (htail : ∀ x ∈ tail.head?, endsAuthority x = true)
    (hc : c ∈ firstSegment endsAuthority
      (((a ++ tail ++ b).rdropWhile isC0ControlOrSpace).filter (!isTabOrNewline ·))) :
    c ∈ a ∨ c ∈ b := by
  match tail with
  | [] =>
    have hmem := (List.rdropWhile_prefix _ _).subset
      (List.mem_filter.1 ((List.takeWhile_prefix _).subset hc)).1
    rwa [List.append_nil, List.mem_append] at hmem
  | x :: tail =>
    have hends : endsAuthority x = true := htail x rfl
    have hvisible : isC0ControlOrSpace x = false := by
      simp only [endsAuthority, List.contains_eq_mem, decide_eq_true_eq, List.mem_cons,
        List.not_mem_nil, or_false] at hends
      rcases hends with rfl | rfl | rfl | rfl <;> rfl
    rw [List.append_assoc, List.cons_append, rdropWhile_append_of_last hvisible,
      List.filter_append, List.filter_cons_of_pos (by rw [isTabOrNewline_of_visible hvisible]; rfl),
      firstSegment, List.takeWhile_append] at hc
    split at hc
    · rw [List.takeWhile_cons_of_neg (by rw [hends]; decide), List.append_nil] at hc
      exact .inl (List.mem_filter.1 hc).1
    · exact .inl (List.mem_filter.1 ((List.takeWhile_prefix _).subset hc)).1

/-- A character that neither is passed over nor ends the authority stays in front. -/
theorem head_authority_end {b : List Char} {c : Char} (hvisible : isC0ControlOrSpace c = false)
    (hplain : endsAuthority c = false) :
    c ∈ (firstSegment endsAuthority
      (((c :: b).rdropWhile isC0ControlOrSpace).filter (!isTabOrNewline ·))).head? := by
  rw [← List.nil_append (c :: b), rdropWhile_append_of_last hvisible, List.nil_append,
    List.filter_cons_of_pos (by rw [isTabOrNewline_of_visible hvisible]; rfl), firstSegment,
    List.takeWhile_cons_of_pos (by rw [hplain]; rfl)]
  rfl

theorem splitHost_colon (s : List Char) : splitHost false (':' :: s) = ([], s) := rfl

theorem splitHost_open (s : List Char) :
    splitHost false ('[' :: s) = ('[' :: (splitHost true s).1, (splitHost true s).2) := rfl

theorem splitHost_close (s : List Char) :
    splitHost true (']' :: s) = (']' :: (splitHost false s).1, (splitHost false s).2) := rfl

/-- A piece without brackets, and without colons unless it is inside of them, goes to the host. -/
theorem splitHost_append {inside : Bool} {a : List Char} (s : List Char)
    (ha : ∀ c ∈ a, (c = ':' → inside = true) ∧ c ≠ '[' ∧ c ≠ ']') :
    splitHost inside (a ++ s) = (a ++ (splitHost inside s).1, (splitHost inside s).2) := by
  induction a with
  | nil => rfl
  | cons c a ih =>
    obtain ⟨hcolon, hopen, hclose⟩ := ha c List.mem_cons_self
    have hgo : ¬ (c = ':' ∧ inside = false) := fun h => by
      rw [hcolon h.1] at h
      exact Bool.noConfusion h.2
    rw [List.cons_append, splitHost, if_neg hgo, if_neg hopen, if_neg hclose,
      ih fun x hx => ha x (List.mem_cons_of_mem _ hx)]
    rfl

/-- Without a colon there is no port. -/
theorem splitHost_port_eq_nil {inside : Bool} {s : List Char} (h : ':' ∉ s) :
    (splitHost inside s).2 = [] := by
  induction s generalizing inside with
  | nil => rfl
  | cons c s ih =>
    rw [List.mem_cons, not_or] at h
    rw [splitHost, if_neg fun hc => h.1 hc.1.symm]
    exact ih h.2

/-! ## A URL put together -/

theorem readPort_toDigits {port : Nat} (h : port < 65536) :
    readPort (Nat.toDigits 10 port) = some (some port) := by
  have hdecimal : decimal (Nat.toDigits 10 port) = port := Nat.ofDigitChars_ten_toDigits
  have hdigits : (Nat.toDigits 10 port).all Char.isDigit = true :=
    List.all_eq_true.2 fun _ => Nat.isDigit_of_mem_toDigits (by omega) (by omega)
  rw [readPort, if_neg Nat.toDigits_ne_nil, hdecimal, hdigits, if_pos (by simpa using h)]

/-- **A URL of visible pieces** is read as what it was put together from. -/
theorem read_pieces {scheme name : List Char} {s c : Char} {port : Nat} (halpha : s.isAlpha = true)
    (hscheme : ∀ x ∈ s :: scheme, isSchemeChar x = true)
    (hname : ∀ x ∈ c :: name,
      isC0ControlOrSpace x = false ∧ endsAuthority x = false ∧ x ≠ '@')
    (hsplit : ∀ rest, splitHost false (c :: name ++ ':' :: rest) = (c :: name, rest))
    (hport : port < 65536) :
    read (s :: scheme ++ ':' :: '/' :: '/' :: (c :: name ++ ':' :: Nat.toDigits 10 port)) =
      some ⟨toAsciiLowercase (s :: scheme), c :: name, some port⟩ := by
  have hdigit : ∀ x ∈ Nat.toDigits 10 port,
      isC0ControlOrSpace x = false ∧ endsAuthority x = false ∧ x ≠ '@' := by
    intro x hx
    have hchar : isSchemeChar x = true := by
      rw [isSchemeChar, Char.isAlphanum,
        Nat.isDigit_of_mem_toDigits (by omega) (by omega) hx, Bool.or_true, Bool.true_or]
    obtain ⟨hvisible, hends, -, -, -, hat⟩ := plain_of_isSchemeChar hchar
    exact ⟨hvisible, hends, hat⟩
  have hpiece : ∀ x ∈ ':' :: Nat.toDigits 10 port,
      isC0ControlOrSpace x = false ∧ endsAuthority x = false ∧ x ≠ '@' := by
    intro x hx
    rcases List.mem_cons.1 hx with rfl | hx
    · decide
    · exact hdigit x hx
  have hall : ∀ x ∈ '/' :: '/' :: (c :: name ++ ':' :: Nat.toDigits 10 port),
      isC0ControlOrSpace x = false := by
    intro x hx
    rw [List.mem_cons, List.mem_cons, List.mem_append] at hx
    rcases hx with rfl | rfl | hx | hx
    · decide
    · decide
    · exact (hname x hx).1
    · exact (hpiece x hx).1
  have hkeep : (('/' :: '/' :: (c :: name ++ ':' :: Nat.toDigits 10 port)).rdropWhile
      isC0ControlOrSpace).filter (!isTabOrNewline ·) =
        '/' :: '/' :: (c :: name ++ ':' :: Nat.toDigits 10 port) := by
    rw [List.rdropWhile_eq_self_iff.2 fun h => by rw [hall _ (List.getLast_mem h)]; decide,
      filter_visible hall]
  have hsegment : firstSegment endsAuthority (':' :: Nat.toDigits 10 port) =
      ':' :: Nat.toDigits 10 port :=
    List.takeWhile_eq_self_iff.2 fun x hx => by rw [(hpiece x hx).2.1]; rfl
  have hat : '@' ∉ c :: name ++ firstSegment endsAuthority (':' :: Nat.toDigits 10 port) := by
    rw [hsegment, List.mem_append, not_or]
    exact ⟨fun h => (hname _ h).2.2 rfl, fun h => (hpiece _ h).2.2 rfl⟩
  have hhostport : hostport (authority ('/' :: '/' :: (c :: name ++ ':' :: Nat.toDigits 10 port))) =
      c :: name ++ firstSegment endsAuthority (':' :: Nat.toDigits 10 port) :=
    hostport_authority name _ (.inl rfl) (fun x hx => (hname x hx).2.1) hat
  rw [read, splitScheme_input _ halpha hscheme, hkeep]
  simp only [Option.bind_eq_bind, Option.bind_some]
  rw [hhostport, hsegment, hsplit, readPort_toDigits hport]
  rfl

end Whatwg
