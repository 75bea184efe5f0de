/-
Purpose: `URLRef` and `URL`: `tlsuv_parse_url`, and the text that `reencoded` makes of the
  components.
-/
import Crouton.Http.Parser
import Crouton.Util.Numbers

namespace Crouton.Url
open Lib

def colon : UInt8 := 58

def slash : UInt8 := 47

def question : UInt8 := 63

/-- `URLRef`, and with it `tlsuv_url_s`: the text of each component.  One that is absent is
empty. -/
structure URLRef where
  scheme : Bytes := []
  hostname : Bytes := []
  port : UInt16 := 0
  path : Bytes := []
  query : Bytes := []
deriving Repr, DecidableEq

/-! ### The parser -/

/-- The scheme, and what follows its `://`.  On an empty string `sscanf` gives `EOF`, and on one
that starts with a colon it leaves `count` at 0. -/
def parseScheme (p : Bytes) : Bytes × Bytes :=
  if [colon, slash, slash] <+: p.dropWhile (· ≠ colon) then
    (p.takeWhile (· ≠ colon), (p.dropWhile (· ≠ colon)).drop 3)
  else ([], p)

/-- `%*[^:/]`. -/
def isHostByte (c : UInt8) : Bool := c ≠ colon && c ≠ slash

def parseHostname (p : Bytes) : Bytes × Bytes := (p.takeWhile isHostByte, p.dropWhile isHostByte)

def parsePort (hostname p : Bytes) : Option (UInt16 × Bytes) :=
  if p.head? = some colon then
    if hostname = [] then none
    else
      let p := p.drop 1
      let (lport, pend) := strtol p
      if pend = p then none
      else if 0 < lport ∧ lport ≤ 65535 then some (UInt16.ofNat lport.toNat, pend)
      else none
  else some (0, p)

def parsePath (p : Bytes) : Option (Bytes × Bytes) :=
  if p = [] then some ([], [])
  else if p.head? ≠ some slash then none
  else some (p.takeWhile (· ≠ question), (p.dropWhile (· ≠ question)).drop 1)

/-- `tlsuv_parse_url` of a C string. -/
def tlsuvParseUrl (urlstr : Bytes) : Option URLRef := do
  let (scheme, p) := parseScheme urlstr
  let (hostname, p) := parseHostname p
  let (port, p) ← parsePort hostname p
  let (path, query) ← parsePath p
  return { scheme, hostname, port, path, query }

namespace URLRef

def tryParse (url : URLRef) (str : Bytes) : Bool × URLRef :=
  match tlsuvParseUrl (cString str) with
  | none => (false, url)
  | some parsed => (true, parsed)

def parse (url : URLRef) (str : Bytes) : Except Error URLRef :=
  match url.tryParse str with
  | (false, _) => .error (.crouton .invalidURL "")
  | (true, parsed) => .ok parsed

def reencoded (url : URLRef) : Bytes :=
  url.scheme ++ (if url.scheme = [] then [] else [colon, slash, slash]) ++ url.hostname ++
    (if url.port = 0 then [] else colon :: decimal url.port.toNat) ++ url.path ++
    (if url.query = [] then [] else question :: url.query)

end URLRef

structure URL extends URLRef where
  str : Bytes
deriving Repr, DecidableEq

namespace URL

def reencode (url : URL) : Except Error URL := do
  let str := url.reencoded
  let parsed ← url.parse str
  return { parsed with str }

/-- `URL(scheme, hostname, port, path, query)`. -/
def construct (scheme hostname : Bytes) (port : UInt16) (path query : Bytes) : Except Error URL :=
  reencode { scheme, hostname, port, path, query, str := [] }

end URL

/-! ### Origin-form targets -/

/-- The first colon stands before two slashes. -/
def SchemeLike (str : Bytes) : Prop := [colon, slash, slash] <+: str.dropWhile (· ≠ colon)

variable {str rest hostname : Bytes}

theorem parseScheme_of_schemeLike (schemeLike : SchemeLike str) :
    parseScheme str = (str.takeWhile (· ≠ colon), (str.dropWhile (· ≠ colon)).drop 3) :=
  if_pos schemeLike

/-- The parse of an origin-form target. -/
def originForm (str : Bytes) : URLRef :=
  { path := str.takeWhile (· ≠ question), query := (str.dropWhile (· ≠ question)).drop 1 }

/-- Without a scheme, a target that starts with a slash is all path and query. -/
theorem tlsuvParseUrl_originForm (plain : ¬ SchemeLike (slash :: rest)) :
    tlsuvParseUrl (slash :: rest) = some (originForm (slash :: rest)) := by
  have noScheme : parseScheme (slash :: rest) = ([], slash :: rest) := if_neg plain
  have noHost : parseHostname (slash :: rest) = ([], slash :: rest) := rfl
  have noPort : parsePort [] (slash :: rest) = some (0, slash :: rest) := rfl
  simp only [tlsuvParseUrl, noScheme, noHost, noPort]
  rfl

/-- What `tlsuvParseUrl` takes as scheme and host name. -/
theorem parts_of_tlsuvParseUrl {url : URLRef} (parsed : tlsuvParseUrl str = some url) :
    url.scheme = (parseScheme str).1 ∧ url.hostname = (parseHostname (parseScheme str).2).1 := by
  simp only [tlsuvParseUrl, Option.bind_eq_bind, Option.bind_eq_some_iff, Option.pure_def,
    Option.some.injEq] at parsed
  obtain ⟨_, _, _, _, rfl⟩ := parsed
  exact ⟨rfl, rfl⟩

/-- A target that starts with a slash is parsed as path and query exactly if its first colon, which
may stand in the path or in the query, does not make a scheme of what precedes it. -/
theorem tryParse_originForm_iff (url : URLRef) (str : Bytes) (starts : str.head? = some slash)
    (free : 0 ∉ str) : url.tryParse str = (true, originForm str) ↔ ¬ SchemeLike str := by
  obtain ⟨rest, rfl⟩ : ∃ rest, str = slash :: rest := List.head?_eq_some_iff.mp starts
  rw [URLRef.tryParse, cString_eq_self free]
  constructor
  · intro parsed schemeLike
    -- the scheme has the slash for its first byte
    cases result : tlsuvParseUrl (slash :: rest) with
    | none => grind
    | some other =>
      rw [result] at parsed
      have scheme := (parts_of_tlsuvParseUrl result).1
      rw [parseScheme_of_schemeLike schemeLike, (Prod.mk.inj parsed).2] at scheme
      cases scheme
  · intro plain
    rw [tlsuvParseUrl_originForm plain]

/-- The target `/a?b`. -/
theorem tryParse_originForm_iff_query :
    URLRef.tryParse {} [47, 97, 63, 98] = (true, originForm [47, 97, 63, 98]) :=
  (tryParse_originForm_iff {} [47, 97, 63, 98] rfl (by decide)).mpr (by unfold SchemeLike; decide)

/-- The target `/r?u=a://b`: the scheme is `/r?u=a` and the host name is `b`. -/
theorem tryParse_originForm_scheme :
    URLRef.tryParse {} [47, 114, 63, 117, 61, 97, 58, 47, 47, 98] =
      (true, { scheme := [47, 114, 63, 117, 61, 97], hostname := [98] }) ∧
    URLRef.tryParse {} [47, 114, 63, 117, 61, 97, 58, 47, 47, 98] ≠
      (true, originForm [47, 114, 63, 117, 61, 97, 58, 47, 47, 98]) := by
  decide

/-! ### Components that are encoded and parsed again -/

/-- Components as a caller may give them. -/
structure Encodable (url : URLRef) : Prop where
  scheme_ne_nil : url.scheme ≠ []
  scheme_plain : ∀ c ∈ url.scheme, c ≠ colon ∧ c ≠ slash ∧ c ≠ question ∧ c ≠ 0
  hostname_ne_nil : url.hostname ≠ []
  hostname_plain : ∀ c ∈ url.hostname, c ≠ colon ∧ c ≠ slash ∧ c ≠ question ∧ c ≠ 0
  path_start : url.path = [] ∨ url.path.head? = some slash
  path_plain : ∀ c ∈ url.path, c ≠ question ∧ c ≠ 0
  query_plain : ∀ c ∈ url.query, c ≠ 0

/-- The part of `reencoded` from the port on. -/
def portText (port : UInt16) : Bytes := if port = 0 then [] else colon :: decimal port.toNat

def queryText (query : Bytes) : Bytes := if query = [] then [] else question :: query

theorem head?_queryText {query : Bytes} {c : UInt8} (first : c ∈ (queryText query).head?) :
    c = question := by
  rw [queryText] at first
  split at first
  · cases first
  · exact (Option.some.inj first).symm

theorem parseScheme_append {scheme : Bytes} (plain : ∀ c ∈ scheme, c ≠ colon) (rest : Bytes) :
    parseScheme (scheme ++ colon :: slash :: slash :: rest) = (scheme, rest) := by
  have inside : ∀ c ∈ scheme, decide (c ≠ colon) = true := fun c member =>
    decide_eq_true (plain c member)
  have stop : ∀ c ∈ (colon :: slash :: slash :: rest).head?, decide (c ≠ colon) = false := by
    rintro c ⟨⟩
    rfl
  have dropped := dropWhile_append_stop inside stop
  have schemeLike : SchemeLike (scheme ++ colon :: slash :: slash :: rest) := by
    rw [SchemeLike, dropped]
    exact ⟨rest, rfl⟩
  rw [parseScheme_of_schemeLike schemeLike, dropped, takeWhile_append_stop inside stop]
  rfl

theorem parseHostname_append (inside : ∀ c ∈ hostname, isHostByte c = true)
    (stop : ∀ c ∈ rest.head?, isHostByte c = false) :
    parseHostname (hostname ++ rest) = (hostname, rest) := by
  rw [parseHostname, takeWhile_append_stop inside stop, dropWhile_append_stop inside stop]

/-- The port is read back from its digits. -/
theorem parsePort_portText (named : hostname ≠ []) (port : UInt16)
    (stop : ∀ c ∈ rest.head?, c = slash ∨ c = question) :
    parsePort hostname (portText port ++ rest) = some (port, rest) := by
  have noColon : ¬ rest.head? = some colon := by
    intro first
    exact absurd (stop colon first) (by decide)
  by_cases absent : port = 0
  · rw [portText, if_pos absent, List.nil_append, parsePort, if_neg noColon, absent]
  · have noDigit : ∀ c ∈ rest.head?, isDigit c = false := by
      intro c first
      rcases stop c first with rfl | rfl <;> decide
    have size := port.toNat_lt
    have positive : 0 < port.toNat := Nat.pos_of_ne_zero fun zero => absent (UInt16.toNat.inj zero)
    have clamped : clampLong port.toNat = port.toNat := by
      unfold clampLong
      omega
    have moved : rest ≠ decimal port.toNat ++ rest := fun same =>
      decimal_ne_nil port.toNat (List.append_left_eq_self.mp same.symm)
    have read := (strtol_decimal port.toNat noDigit).1
    have inRange : (0 : Int) < port.toNat ∧ (port.toNat : Int) ≤ 65535 := by omega
    rw [portText, if_neg absent, List.cons_append]
    simp only [parsePort, List.head?_cons, if_true, if_neg named, List.drop_succ_cons,
      List.drop_zero, read, if_neg moved, clamped, if_pos inRange, Int.toNat_natCast,
      UInt16.ofNat_toNat]

/-- A path is read back, with or without a query. -/
theorem parsePath_append {path : Bytes} (start : path.head? = some slash)
    (plain : ∀ c ∈ path, c ≠ question) (query : Bytes) :
    parsePath (path ++ queryText query) = some (path, query) := by
  have inside : ∀ c ∈ path, decide (c ≠ question) = true := fun c member =>
    decide_eq_true (plain c member)
  have stop : ∀ c ∈ (queryText query).head?, decide (c ≠ question) = false := by
    grind [head?_queryText]
  have first : (path ++ queryText query).head? = some slash := by grind
  have nonempty : path ++ queryText query ≠ [] := by grind
  have read : (queryText query).drop 1 = query := by grind [queryText]
  rw [parsePath, if_neg nonempty, if_neg (not_not.mpr first),
    takeWhile_append_stop inside stop, dropWhile_append_stop inside stop, read]

namespace Encodable

variable {url : URLRef}

/-- The bytes of the encoded URL. -/
theorem reencoded_eq (encodable : Encodable url) :
    url.reencoded = url.scheme ++ colon :: slash :: slash ::
      (url.hostname ++ (portText url.port ++ (url.path ++ queryText url.query))) := by
  simp only [URLRef.reencoded, portText, queryText, if_neg encodable.scheme_ne_nil,
    List.append_assoc, List.cons_append, List.nil_append]

theorem zero_notMem_reencoded (encodable : Encodable url) : 0 ∉ url.reencoded := by
  have noDigit : 0 ∉ portText url.port := by
    rw [portText]
    split
    · exact List.not_mem_nil
    · intro member
      rcases List.mem_cons.mp member with zero | inDigits
      · exact absurd zero (by decide)
      · exact absurd (isDigit_of_mem_decimal inDigits) (by decide)
  have noQuery : 0 ∉ queryText url.query := by
    rw [queryText]
    split
    · exact List.not_mem_nil
    · intro member
      rcases List.mem_cons.mp member with zero | inQuery
      · exact absurd zero (by decide)
      · exact encodable.query_plain 0 inQuery rfl
  rw [encodable.reencoded_eq]
  simp only [List.mem_append, List.mem_cons, not_or]
  exact ⟨fun member => (encodable.scheme_plain 0 member).2.2.2 rfl, by decide, by decide, by decide,
    fun member => (encodable.hostname_plain 0 member).2.2.2 rfl, noDigit,
    fun member => (encodable.path_plain 0 member).2 rfl, noQuery⟩

theorem isHostByte_of_mem (encodable : Encodable url) :
    ∀ c ∈ url.hostname, isHostByte c = true := by
  intro c member
  obtain ⟨noColon, noSlash, -, -⟩ := encodable.hostname_plain c member
  simp [isHostByte, noColon, noSlash]

/-- What follows the port starts with a slash or a question mark. -/
theorem head?_tail (encodable : Encodable url) :
    ∀ c ∈ (url.path ++ queryText url.query).head?, c = slash ∨ c = question := by
  intro c first
  rcases encodable.path_start with empty | start
  · grind [head?_queryText]
  · grind

end Encodable

variable {url : URLRef}

/-- The parse of an encoded URL, up to the path. -/
theorem tlsuvParseUrl_reencoded (encodable : Encodable url)
    (stop : ∀ c ∈ (portText url.port ++ (url.path ++ queryText url.query)).head?,
      isHostByte c = false) :
    tlsuvParseUrl url.reencoded =
      (parsePath (url.path ++ queryText url.query)).map fun parsed =>
        { url with path := parsed.1, query := parsed.2 } := by
  rw [encodable.reencoded_eq, tlsuvParseUrl,
    parseScheme_append fun c member => (encodable.scheme_plain c member).1]
  simp only [parseHostname_append encodable.isHostByte_of_mem stop,
    parsePort_portText encodable.hostname_ne_nil url.port encodable.head?_tail, Option.bind_eq_bind,
    Option.bind_some]
  cases parsePath (url.path ++ queryText url.query) <;> rfl

theorem parse_eq (url : URLRef) {str : Bytes} (free : 0 ∉ str) :
    url.parse str =
      match tlsuvParseUrl str with
      | none => .error (.crouton .invalidURL "")
      | some parsed => .ok parsed := by
  rw [URLRef.parse, URLRef.tryParse, cString_eq_self free]
  cases tlsuvParseUrl str <;> rfl

/-- The components of a constructed URL are those parsed from the encoded text. -/
theorem construct_iff_parse (encodable : Encodable url) :
    (∃ made, URL.construct url.scheme url.hostname url.port url.path url.query = .ok made ∧
      made.toURLRef = url) ↔ tlsuvParseUrl url.reencoded = some url := by
  have unfolded : URL.construct url.scheme url.hostname url.port url.path url.query =
      (url.parse url.reencoded).bind fun parsed => .ok { parsed with str := url.reencoded } := rfl
  rw [unfolded, parse_eq url encodable.zero_notMem_reencoded]
  cases tlsuvParseUrl url.reencoded with
  | none =>
    refine ⟨?_, nofun⟩
    rintro ⟨made, isMade, -⟩
    cases isMade
  | some parsed =>
    constructor
    · rintro ⟨made, isMade, same⟩
      cases isMade
      exact congrArg some same
    · intro same
      exact ⟨_, rfl, Option.some.inj same⟩

/-- The host name of an encoded URL ends where it should if a port or a path follows it, or
nothing. -/
theorem head?_behind_hostname (encodable : Encodable url)
    (delimited : url.port ≠ 0 ∨ url.path ≠ [] ∨ url.query = []) :
    ∀ c ∈ (portText url.port ++ (url.path ++ queryText url.query)).head?, isHostByte c = false := by
  intro c first
  by_cases absent : url.port = 0
  · rw [portText, if_pos absent, List.nil_append] at first
    rcases encodable.path_start with empty | start
    · rcases delimited with port | path | noQuery
      · exact absurd absent port
      · exact absurd empty path
      · rw [empty, noQuery] at first
        cases first
    · rw [List.head?_append, start] at first
      cases first
      decide
  · rw [portText, if_neg absent] at first
    cases first
    decide

/-- Without a port and a path, the host name takes in the question mark. -/
theorem hostname_ne_of_query {parsed : URLRef} (encodable : Encodable url) (noPort : url.port = 0)
    (noPath : url.path = []) (someQuery : url.query ≠ [])
    (isParsed : tlsuvParseUrl url.reencoded = some parsed) : parsed.hostname ≠ url.hostname := by
  have text : url.reencoded =
      url.scheme ++ colon :: slash :: slash :: (url.hostname ++ question :: url.query) := by
    rw [encodable.reencoded_eq, noPort, noPath, queryText, if_neg someQuery]
    rfl
  have hostname := (parts_of_tlsuvParseUrl isParsed).2
  rw [text, parseScheme_append fun c member => (encodable.scheme_plain c member).1, parseHostname,
    List.takeWhile_append_of_pos encodable.isHostByte_of_mem] at hostname
  rw [hostname]
  intro same
  have nothing := List.append_right_eq_self.mp same
  rw [List.takeWhile_cons_of_pos (by decide)] at nothing
  cases nothing

/-- The components of an encoded URL are read back exactly if it has a path or no query. -/
theorem construct_iff (url : URLRef) (encodable : Encodable url) :
    (∃ made, URL.construct url.scheme url.hostname url.port url.path url.query = .ok made ∧
      made.toURLRef = url) ↔ url.path ≠ [] ∨ url.query = [] := by
  rw [construct_iff_parse encodable]
  constructor
  · intro parsed
    by_contra swallowed
    obtain ⟨noPath, someQuery⟩ := not_or.mp swallowed
    rw [not_not] at noPath
    by_cases noPort : url.port = 0
    · exact hostname_ne_of_query encodable noPort noPath someQuery parsed rfl
    · -- the question mark stands behind the port, where only a slash may stand
      have rejected : parsePath (url.path ++ queryText url.query) = none := by
        rw [noPath, queryText, if_neg someQuery]
        rfl
      rw [tlsuvParseUrl_reencoded encodable (head?_behind_hostname encodable (.inl noPort)),
        rejected] at parsed
      cases parsed
  · intro delimited
    have read : parsePath (url.path ++ queryText url.query) = some (url.path, url.query) := by
      rcases encodable.path_start with empty | start
      · have noQuery := delimited.resolve_left (not_not.mpr empty)
        rw [empty, noQuery]
        rfl
      · exact parsePath_append start (fun c member => (encodable.path_plain c member).1) url.query
    rw [tlsuvParseUrl_reencoded encodable (head?_behind_hostname encodable (.inr delimited)), read]
    rfl

/-- The components of `a://b:80/?q`. -/
def sample : URLRef :=
  { scheme := [97], hostname := [98], port := 80, path := [47], query := [113] }

theorem construct_iff_sample :
    Encodable sample ∧ ∃ made, URL.construct [97] [98] 80 [47] [113] = .ok made ∧
      made.toURLRef = sample := by
  have encodable : Encodable sample := by
    constructor <;> simp [sample, colon, slash, question]
  exact ⟨encodable, (construct_iff sample encodable).mpr (.inl (by decide))⟩

/-- `a` and `b` with the query `q`: the host name becomes `b?q`, and with port 80 the URL is
refused. -/
theorem construct_query_swallowed : Encodable { scheme := [97], hostname := [98], query := [113] } ∧
    URL.construct [97] [98] 0 [] [113] =
      .ok { scheme := [97], hostname := [98, 63, 113], str := [97, 58, 47, 47, 98, 63, 113] } ∧
    URL.construct [97] [98] 80 [] [113] = .error (.crouton .invalidURL "") := by
  refine ⟨?_, by decide, by decide⟩
  constructor <;> simp [colon, slash, question]

end Crouton.Url
