import Facade.Backendify
import Facade.ClientCalls
import Facade.ConfigFile

/-!
Which URLs `Utils::parseUrl` accepts (src/utils/Utils.hpp), and what follows for
the backends that are called. A URL can be matched by `url_regex` in one way
only (`url_matches_unique`), so the backtracking of the matcher does not show,
and parsing is reading the grammar `HttpUrl` (`parseUrl_iff`). Every configured
backend therefore has a port and is not HTTPS, and the branches of
`callBackendApi` that refuse a call are never taken (`posted_run`).
-/
namespace Facade.Configuration
open Strings Streams

/-- `Utils::parseUrl`, with what it returns and what is in `*urlInfo` after it. -/
def parseUrlInto (url : Bytes) (urlInfo : BackendUrlInfo) : Bool × BackendUrlInfo :=
  let str (captures : Regex.Captures) (number : Nat) : Bytes := (captures.lookup number).getD []
  match url_regex.regex_match url with
  | none => (false,urlInfo)
  | some captures =>
    let scheme := str captures 1
    if scheme = lit "https" then (false,urlInfo)
    else
      let is_https := decide (scheme = lit "https")
      let host := str captures 2
      let port := match captures.lookup 3 with
        | some digits =>
          match stoi digits with
          | some port => if port ≤ 0 ∨ port > 65535 then none else some port
          | none => none
        | none => some (if is_https then 443 else 80)
      match port with
      | none => (false,urlInfo)
      | some port =>
        let urlInfo := { urlInfo with backend_host := host }
        let urlInfo := { urlInfo with backend_port := port }
        let urlInfo := { urlInfo with is_https := is_https }
        (true,urlInfo)

/-! ### The grammar -/

/-- A host: some bytes, none of them a delimiter. -/
structure IsHost (host : Bytes) : Prop where
  nonempty : host ≠ []
  plain : ∀ c ∈ host, c ∉ lit ":/?#"

/-- What may follow: nothing, or one of '/', '?' and '#'. -/
def IsTail (tail : Bytes) : Prop := tail = [] ∨ ∃ c ∈ lit "/?#", tail = [c]

/-- A row of decimal digits. -/
def IsRow (digits : Bytes) : Prop := digits ≠ [] ∧ ∀ c ∈ digits, isDigit c = true

/-- The URLs that are accepted, with their host and port. -/
inductive HttpUrl (host : Bytes) : Int → Bytes → Prop
  | bare (tail : Bytes) : IsHost host → IsTail tail → HttpUrl host 80 (lit "http://" ++ host ++ tail)
  | withPort (digits tail : Bytes) : IsHost host → IsRow digits → 1 ≤ IStream.decimal digits →
      IStream.decimal digits ≤ 65535 → IsTail tail →
      HttpUrl host (IStream.decimal digits) (lit "http://" ++ host ++ 58 :: digits ++ tail)

/-- The parts of a URL that the expression matches. -/
structure Parts where
  scheme : Bytes
  host : Bytes
  port : Option Bytes
  tail : Bytes

namespace Parts

/-- The port with its colon. -/
def portText (parts : Parts) : Bytes := parts.port.elim [] fun digits => 58 :: digits

def text (parts : Parts) : Bytes := parts.scheme ++ lit "://" ++ parts.host ++ parts.portText ++ parts.tail

def captures (parts : Parts) : Regex.Captures :=
  (1,parts.scheme) :: (2,parts.host) :: parts.port.elim [] fun digits => [(3,digits)]

structure Valid (parts : Parts) : Prop where
  scheme : parts.scheme = lit "http" ∨ parts.scheme = lit "https"
  host : IsHost parts.host
  port : ∀ digits, parts.port = some digits → IsRow digits
  tail : IsTail parts.tail

end Parts

section
variable {s rest : Bytes} {captures : Regex.Captures}

theorem scheme_iff : (captures,rest) ∈
      (Regex.group 1 (.seq (.literal (lit "http")) (.opt (.literal (lit "s"))))).matches_ s ↔
    ∃ scheme, (scheme = lit "http" ∨ scheme = lit "https") ∧ s = scheme ++ rest ∧ captures = [(1,scheme)] := by
  simp only [Regex.mem_group,Regex.mem_seq,Regex.mem_opt,Regex.mem_literal]
  constructor
  · rintro ⟨taken,_,whole,⟨_,_,_,⟨rfl,split⟩,secure | plain,rfl⟩,rfl⟩
    · obtain ⟨rfl,rfl⟩ := secure
      have scheme : taken = lit "http" ++ lit "s" := by
        rw [whole,← List.append_assoc] at split
        exact List.append_cancel_right split
      exact ⟨taken,.inr scheme,whole,rfl⟩
    · obtain ⟨rfl,rfl⟩ := plain
      rw [whole] at split
      exact ⟨taken,.inl (List.append_cancel_right split),whole,rfl⟩
  · rintro ⟨scheme,rfl | rfl,rfl,rfl⟩
    · exact ⟨lit "http",[],rfl,⟨[],rest,[],⟨rfl,rfl⟩,.inr ⟨rfl,rfl⟩,rfl⟩,rfl⟩
    · exact ⟨lit "https",[],rfl,⟨[],lit "s" ++ rest,[],⟨rfl,rfl⟩,.inl ⟨rfl,rfl⟩,rfl⟩,rfl⟩

theorem host_iff : (captures,rest) ∈ (Regex.group 2 (.plus fun c => !(lit ":/?#").contains c)).matches_ s ↔
    ∃ host, IsHost host ∧ s = host ++ rest ∧ captures = [(2,host)] := by
  simp only [Regex.mem_group,Regex.mem_plus,Bool.not_eq_true',List.contains_eq_mem,decide_eq_false_iff_not]
  constructor
  · rintro ⟨taken,_,whole,⟨rfl,host,nonempty,plain,split⟩,rfl⟩
    rw [whole] at split
    obtain rfl := List.append_cancel_right split
    exact ⟨taken,⟨nonempty,plain⟩,whole,rfl⟩
  · rintro ⟨host,isHost,rfl,rfl⟩
    exact ⟨host,[],rfl,⟨rfl,host,isHost.nonempty,isHost.plain,rfl⟩,rfl⟩

theorem port_iff : (captures,rest) ∈ (Regex.opt (.seq (.literal (lit ":")) (.group 3 (.plus isDigit)))).matches_ s ↔
    ∃ port : Option Bytes, (∀ digits, port = some digits → IsRow digits) ∧
      s = (port.elim [] fun digits => 58 :: digits) ++ rest ∧ captures = port.elim [] fun digits => [(3,digits)] := by
  simp only [Regex.mem_opt,Regex.mem_seq,Regex.mem_literal,Regex.mem_group,Regex.mem_plus]
  constructor
  · rintro (⟨_,_,_,⟨rfl,rfl⟩,⟨taken,_,whole,⟨rfl,digits,nonempty,all,split⟩,rfl⟩,rfl⟩ | ⟨rfl,rfl⟩)
    · rw [whole] at split
      obtain rfl := List.append_cancel_right split
      refine ⟨some taken,?_,by rw [whole]; rfl,rfl⟩
      rintro _ ⟨⟩
      exact ⟨nonempty,all⟩
    · exact ⟨none,by simp,rfl,rfl⟩
  · rintro ⟨port,row,rfl,rfl⟩
    cases port with
    | none => exact .inr ⟨rfl,rfl⟩
    | some digits =>
      obtain ⟨nonempty,all⟩ := row digits rfl
      exact .inl ⟨[],digits ++ rest,[(3,digits)],⟨rfl,rfl⟩,⟨digits,[],rfl,⟨rfl,digits,nonempty,all,rfl⟩,rfl⟩,rfl⟩

theorem tail_iff : (captures,[]) ∈ (Regex.alt (.byte fun c => (lit "/?#").contains c) .atEnd).matches_ s ↔
    IsTail s ∧ captures = [] := by
  simp only [Regex.mem_alt,Regex.mem_byte,Regex.mem_atEnd,List.contains_eq_mem,decide_eq_true_eq]
  constructor
  · rintro (⟨rfl,c,delimiter,rfl⟩ | ⟨rfl,rfl,_⟩)
    · exact ⟨.inr ⟨c,delimiter,rfl⟩,rfl⟩
    · exact ⟨.inl rfl,rfl⟩
  · rintro ⟨rfl | ⟨c,delimiter,rfl⟩,rfl⟩
    · exact .inr ⟨rfl,rfl,trivial⟩
    · exact .inl ⟨rfl,c,delimiter,rfl⟩

/-- The ways to match a whole URL are the ways to read it as its parts. -/
theorem url_regex_iff {url : Bytes} : (captures,[]) ∈ url_regex.matches_ url ↔
    ∃ parts : Parts, parts.Valid ∧ url = parts.text ∧ captures = parts.captures := by
  unfold url_regex
  simp only [Regex.mem_seq,scheme_iff,Regex.mem_literal,host_iff,port_iff,tail_iff]
  constructor
  · rintro ⟨_,_,_,⟨scheme,isScheme,rfl,rfl⟩,⟨_,_,_,⟨rfl,rfl⟩,⟨_,_,_,⟨host,isHost,rfl,rfl⟩,⟨_,tail,_,⟨port,isRow,rfl,rfl⟩,
      ⟨isTail,rfl⟩,rfl⟩,rfl⟩,rfl⟩,rfl⟩
    refine ⟨⟨scheme,host,port,tail⟩,⟨isScheme,isHost,isRow,isTail⟩,?_,?_⟩
    · simp only [Parts.text,Parts.portText,List.append_assoc]
    · simp only [Parts.captures,List.append_nil,List.cons_append,List.nil_append]
  · rintro ⟨⟨scheme,host,port,tail⟩,valid,rfl,rfl⟩
    refine ⟨_,_,_,⟨scheme,valid.scheme,?_,rfl⟩,⟨_,_,_,⟨rfl,rfl⟩,⟨_,_,_,⟨host,valid.host,rfl,rfl⟩,⟨_,tail,_,
      ⟨port,valid.port,rfl,rfl⟩,⟨valid.tail,rfl⟩,rfl⟩,rfl⟩,rfl⟩,?_⟩
    · simp only [Parts.text,Parts.portText,List.append_assoc]
    · simp only [Parts.captures,List.append_nil,List.cons_append,List.nil_append]

end

/-! ### One way to read a URL -/

/-- A run of one class of bytes that ends where the class ends is settled by
    the text. -/
theorem run_unique (class_ : UInt8 → Prop) {x y a b : Bytes} (left : ∀ c ∈ x, class_ c) (right : ∀ c ∈ y, class_ c)
    (stops : ∀ c ∈ a.head?, ¬ class_ c) (stops' : ∀ c ∈ b.head?, ¬ class_ c) (same : x ++ a = y ++ b) :
    x = y ∧ a = b := by
  induction x generalizing y with
  | nil =>
    cases y with
    | nil => exact ⟨rfl,same⟩
    | cons d later =>
      have first : a = d :: (later ++ b) := same
      exact absurd (right d (by simp)) (stops d (by simp [first]))
  | cons c rest ih =>
    cases y with
    | nil =>
      have first : b = c :: (rest ++ a) := same.symm
      exact absurd (left c (by simp)) (stops' c (by simp [first]))
    | cons d later =>
      obtain ⟨rfl,tails⟩ := List.cons.inj same
      obtain ⟨rfl,rfl⟩ := ih (fun e member => left e (by simp [member])) (fun e member => right e (by simp [member])) tails
      exact ⟨rfl,rfl⟩

theorem IsTail.head {tail : Bytes} (isTail : IsTail tail) {c : UInt8} (first : c ∈ tail.head?) : c ∈ lit "/?#" := by
  rcases isTail with rfl | ⟨d,delimiter,rfl⟩
  · cases first
  · cases first
    exact delimiter

/-- After the host comes a delimiter or the end. -/
theorem Parts.Valid.head {parts : Parts} (valid : parts.Valid) {c : UInt8}
    (first : c ∈ (parts.portText ++ parts.tail).head?) : c ∈ lit ":/?#" := by
  have delimiters : (lit "/?#").all (fun d => decide (d ∈ lit ":/?#")) = true := by decide
  unfold Parts.portText at first
  cases given : parts.port with
  | none =>
    rw [given] at first
    exact of_decide_eq_true (List.all_eq_true.mp delimiters c (valid.tail.head first))
  | some digits =>
    rw [given] at first
    cases first
    decide

/-- A URL can be matched in one way. -/
theorem url_matches_unique {parts other : Parts} (valid : parts.Valid) (valid' : other.Valid)
    (same : parts.text = other.text) : parts = other := by
  have digitless : ∀ c ∈ lit "/?#", ¬ isDigit c = true := by
    have all : (lit "/?#").all (fun c => !isDigit c) = true := by decide
    intro c member
    simpa using List.all_eq_true.mp all c member
  have colonless : 58 ∉ lit "/?#" := by decide
  obtain ⟨scheme,host,port,tail⟩ := parts
  obtain ⟨scheme',host',port',tail'⟩ := other
  have schemes : scheme = scheme' ∧ host ++ (Parts.portText ⟨scheme,host,port,tail⟩ ++ tail) =
      host' ++ (Parts.portText ⟨scheme',host',port',tail'⟩ ++ tail') := by
    simp only [Parts.text,List.append_assoc] at same
    rcases valid.scheme with rfl | rfl <;> rcases valid'.scheme with rfl | rfl
    · exact ⟨rfl,List.append_cancel_left (List.append_cancel_left same)⟩
    · exact absurd same (by simp [lit])
    · exact absurd same (by simp [lit])
    · exact ⟨rfl,List.append_cancel_left (List.append_cancel_left same)⟩
  obtain ⟨rfl,same⟩ := schemes
  obtain ⟨rfl,same⟩ := run_unique (fun c => c ∉ lit ":/?#") valid.host.plain valid'.host.plain
    (fun c first => not_not.mpr (valid.head first)) (fun c first => not_not.mpr (valid'.head first)) same
  -- the port is there when a colon is, and its digits end where the tail begins
  cases port with
  | none =>
    cases port' with
    | none =>
      obtain rfl : tail = tail' := same
      rfl
    | some digits' =>
      have first : tail = 58 :: (digits' ++ tail') := same
      exact absurd (valid.tail.head (c := 58) (by simp [first])) colonless
  | some digits =>
    cases port' with
    | none =>
      have first : tail' = 58 :: (digits ++ tail) := same.symm
      exact absurd (valid'.tail.head (c := 58) (by simp [first])) colonless
    | some digits' =>
      have rows : digits ++ tail = digits' ++ tail' := (List.cons.inj same).2
      obtain ⟨rfl,rfl⟩ := run_unique (fun c => isDigit c = true) (valid.port digits rfl).2
        (valid'.port digits' rfl).2 (fun c first => digitless c (valid.tail.head first)) (fun c first => digitless c (valid'.tail.head first)) rows
      rfl

theorem regex_match_url {url : Bytes} {captures : Regex.Captures} : url_regex.regex_match url = some captures ↔
    ∃ parts : Parts, parts.Valid ∧ url = parts.text ∧ captures = parts.captures := by
  constructor
  · intro found
    exact url_regex_iff.mp (Regex.regex_match_some found)
  · rintro ⟨parts,valid,rfl,rfl⟩
    refine Regex.regex_match_of_unique (url_regex_iff.mpr ⟨parts,valid,rfl,rfl⟩) ?_
    intro captures matched
    obtain ⟨other,valid',same,rfl⟩ := url_regex_iff.mp matched
    rw [url_matches_unique valid valid' same]

/-! ### What is accepted -/

/-- The port of a row of digits, where it is in range. -/
theorem stoi_in_range {digits : Bytes} (isRow : IsRow digits) {port : Int} :
    ((stoi digits).filter fun port => 0 < port ∧ port ≤ 65535) = some port ↔
      port = IStream.decimal digits ∧ 1 ≤ IStream.decimal digits ∧ IStream.decimal digits ≤ 65535 := by
  unfold stoi
  by_cases large : 2147483647 < IStream.decimal digits
  · rw [if_pos (.inr large)]
    constructor
    · intro found
      cases found
    · intro inRange
      omega
  · rw [if_neg (not_or.mpr ⟨isRow.1,large⟩),Option.filter_eq_some_iff,Option.some.injEq,decide_eq_true_eq]
    omega

theorem portOf_captures {parts : Parts} (valid : parts.Valid) {port : Int} :
    portOf parts.captures = some port ↔ (parts.port = none ∧ port = 80) ∨
      ∃ digits, parts.port = some digits ∧ port = IStream.decimal digits ∧ 1 ≤ IStream.decimal digits ∧
        IStream.decimal digits ≤ 65535 := by
  have third : parts.captures.lookup 3 = parts.port := by
    unfold Parts.captures
    cases parts.port <;> rfl
  unfold portOf
  rw [third]
  cases given : parts.port with
  | none =>
    simp only [Option.some.injEq,true_and,reduceCtorEq,false_and,exists_false,or_false]
    exact eq_comm
  | some digits =>
    show ((stoi digits).filter fun port => 0 < port ∧ port ≤ 65535) = some port ↔ _
    rw [stoi_in_range (valid.port digits given)]
    simp

/-- The grammar, by the parts of the URL. -/
theorem httpUrl_iff {host url : Bytes} {port : Int} : HttpUrl host port url ↔
    ∃ parts : Parts, parts.Valid ∧ url = parts.text ∧ parts.scheme = lit "http" ∧ parts.host = host ∧
      portOf parts.captures = some port := by
  constructor
  · intro reads
    cases reads with
    | bare tail isHost isTail =>
      have valid : Parts.Valid ⟨lit "http",host,none,tail⟩ := ⟨.inl rfl,isHost,by simp,isTail⟩
      exact ⟨_,valid,by simp [Parts.text,Parts.portText,lit],rfl,rfl,(portOf_captures valid).mpr (.inl ⟨rfl,rfl⟩)⟩
    | withPort digits tail isHost isRow low high isTail =>
      have valid : Parts.Valid ⟨lit "http",host,some digits,tail⟩ :=
        ⟨.inl rfl,isHost,by rintro _ ⟨⟩; exact isRow,isTail⟩
      exact ⟨_,valid,by simp [Parts.text,Parts.portText,lit],rfl,rfl,
        (portOf_captures valid).mpr (.inr ⟨digits,rfl,rfl,low,high⟩)⟩
  · rintro ⟨⟨_,_,given,tail⟩,valid,rfl,rfl,rfl,inRange⟩
    rcases (portOf_captures valid).mp inRange with ⟨none_,rfl⟩ | ⟨digits,some_,rfl,low,high⟩
    · obtain rfl : given = none := none_
      have text := HttpUrl.bare tail valid.host valid.tail
      simpa [Parts.text,Parts.portText,lit] using text
    · obtain rfl : given = some digits := some_
      have text := HttpUrl.withPort digits tail valid.host (valid.port digits rfl) low high valid.tail
      simpa [Parts.text,Parts.portText,lit] using text

/-- Parsing is reading the grammar. -/
theorem parseUrl_iff {url : Bytes} {urlInfo parsed : BackendUrlInfo} : parseUrl url urlInfo = some parsed ↔
    ∃ host port, HttpUrl host port url ∧
      parsed = { urlInfo with backend_host := host, backend_port := port, is_https := false } := by
  simp only [httpUrl_iff]
  unfold parseUrl
  constructor
  · intro found
    obtain ⟨captures,matched,found⟩ := Option.bind_eq_some_iff.mp found
    obtain ⟨parts,valid,rfl,rfl⟩ := regex_match_url.mp matched
    obtain ⟨scheme,isScheme,found⟩ := Option.bind_eq_some_iff.mp found
    obtain rfl : parts.scheme = scheme := Option.some.inj isScheme
    split at found
    · cases found
    · rename_i plain
      obtain ⟨host,isHost,found⟩ := Option.bind_eq_some_iff.mp found
      obtain rfl : parts.host = host := Option.some.inj isHost
      obtain ⟨port,isPort,found⟩ := Option.bind_eq_some_iff.mp found
      exact ⟨parts.host,port,⟨parts,valid,rfl,valid.scheme.resolve_right plain,rfl,isPort⟩,(Option.some.inj found).symm⟩
  · rintro ⟨host,port,⟨parts,valid,rfl,http,rfl,isPort⟩,rfl⟩
    have matched : url_regex.regex_match parts.text = some parts.captures := regex_match_url.mpr ⟨parts,valid,rfl,rfl⟩
    have scheme : parts.captures.lookup 1 = some (lit "http") := by rw [← http]; rfl
    have host : parts.captures.lookup 2 = some parts.host := rfl
    simp only [matched,scheme,host,isPort,Option.bind_eq_bind,Option.bind_some]
    rfl

/-- What the function returns and stores is what `parseUrl` says. -/
theorem parseUrlInto_eq (url : Bytes) (urlInfo : BackendUrlInfo) :
    parseUrlInto url urlInfo = match parseUrl url urlInfo with
      | some parsed => (true,parsed)
      | none => (false,urlInfo) := by
  unfold parseUrlInto parseUrl
  cases matched : url_regex.regex_match url with
  | none => rfl
  | some captures =>
    obtain ⟨parts,_,_,rfl⟩ := regex_match_url.mp matched
    have first : parts.captures.lookup 1 = some parts.scheme := rfl
    have second : parts.captures.lookup 2 = some parts.host := rfl
    simp only [first,second,Option.bind_eq_bind,Option.bind_some,Option.getD_some]
    by_cases secure : parts.scheme = lit "https"
    · simp only [secure,if_true]
    · simp only [secure,if_false,decide_false,Bool.false_eq_true]
      unfold portOf
      cases parts.captures.lookup 3 with
      | none => rfl
      | some digits =>
        cases value : stoi digits with
        | none => simp only [value,Option.filter_none,Option.bind_none]
        | some port =>
          by_cases refused : port ≤ 0 ∨ port > 65535
          · have outside : ¬ (0 < port ∧ port ≤ 65535) := by omega
            simp only [value,refused,outside,if_true,Option.filter_some,decide_false,Bool.false_eq_true,if_false,
              Option.bind_none]
          · have inside : 0 < port ∧ port ≤ 65535 := by omega
            simp only [value,refused,inside,if_false,Option.filter_some,and_self,decide_true,if_true,Option.bind_some]

/-- The function returns true exactly on the URLs of the grammar, then it stores
    the host, the port and no HTTPS, and otherwise it stores nothing. -/
structure ParsesUrl (url : Bytes) (urlInfo : BackendUrlInfo) : Prop where
  accepts : (parseUrlInto url urlInfo).1 = true ↔ ∃ host port, HttpUrl host port url
  stores : ∀ host port, HttpUrl host port url →
    (parseUrlInto url urlInfo).2 = { urlInfo with backend_host := host, backend_port := port, is_https := false }
  refuses : (parseUrlInto url urlInfo).1 = false → (parseUrlInto url urlInfo).2 = urlInfo

theorem parsesUrl (url : Bytes) (urlInfo : BackendUrlInfo) : ParsesUrl url urlInfo := by
  have into := parseUrlInto_eq url urlInfo
  refine ⟨?_,?_,?_⟩
  · constructor
    · intro accepted
      cases parsed : parseUrl url urlInfo with
      | none => simp [into,parsed] at accepted
      | some found =>
        obtain ⟨host,port,reads,_⟩ := parseUrl_iff.mp parsed
        exact ⟨host,port,reads⟩
    · rintro ⟨host,port,reads⟩
      rw [into,parseUrl_iff.mpr ⟨host,port,reads,rfl⟩]
  · intro host port reads
    rw [into,parseUrl_iff.mpr ⟨host,port,reads,rfl⟩]
  · intro refused
    cases parsed : parseUrl url urlInfo with
    | none => rw [into,parsed]
    | some found => simp [into,parsed] at refused

/-! ### The backends that are called -/

/-- A country with a backend as `parseUrl` leaves it. -/
structure Callable (b : Bytes × BackendUrlInfo) : Prop where
  country : IsCountry b.1
  low : 1 ≤ b.2.backend_port
  high : b.2.backend_port ≤ 65535
  supported : b.2.is_https = false

theorem HttpUrl.inRange {host url : Bytes} {port : Int} (reads : HttpUrl host port url) : 1 ≤ port ∧ port ≤ 65535 := by
  cases reads with
  | bare => decide
  | withPort digits tail _ _ low high => omega

/-- Every country of a configuration that was loaded can be called. -/
theorem loaded_callable {hardware_concurrency : UInt32} {files : Bytes → Option Bytes}
    {startupArguments : OrderedMap Bytes Bytes} {config : AppConfig}
    (loaded : loadConfiguration hardware_concurrency files startupArguments = .ok config) :
    ∀ b ∈ config.country_backend_map, Callable b := by
  rw [loadConfiguration_eq_ok (knownLevels_of_ok loaded),Except.ok.injEq] at loaded
  subst loaded
  show ∀ b ∈ (loadCountries startupArguments (settled (settingsOf files))).country_backend_map, Callable b
  refine forall_loadCountries ?_ (by intro b member; cases member) startupArguments
  intro key value urlInfo code parsed
  obtain ⟨host,port,reads,rfl⟩ := parseUrl_iff.mp parsed
  exact ⟨isCountry_toUpper code,reads.inRange.1,reads.inRange.2,rfl⟩

end Facade.Configuration

namespace Facade.ClientCalls
open Strings Http Backendify Facade.Configuration

/-- The call is one that `processCompanyRequest` makes, for some request. -/
def Issued (config : AppConfig) : Action → Prop
  | .callBackendApi backendUrlInfo company_id =>
    ∃ (cache : CacheInterface) (store : cache.Store) (breaker : CircuitBreaker) (starts : Bool) (req : Request)
      (request_received_time : Int) (m : Moment) (call : BackendCall),
      (processCompanyRequest cache config store breaker starts req request_received_time m).1 = .calling call ∧
        backendUrlInfo = some call.backend ∧ company_id = call.id
  | _ => True

theorem relay_posted (call : ClientCall) (id : Nat) (events : List AsyncHttpClientSession.Event) (p : ClientCalls) :
    (relay call id events p).1.posted = p.posted := by
  induction events generalizing p with
  | nil => rfl
  | cons e rest ih =>
    cases e with
    | completed res ec =>
      show (relay call id rest (on_complete call res ec p).1).1.posted = p.posted
      rw [ih]
      unfold on_complete
      cases call.session_to_remove_on_complete <;> rfl
    | started phase => exact ih p
    | closed => exact ih p

theorem advance_posted {p p' : ClientCalls} {out : List Event} {id : Nat} {a : AsyncHttpClientSession.Action}
    (taken : advance id a p = some (p',out)) : p'.posted = p.posted := by
  simp only [advance,Option.bind_eq_bind,Option.bind_eq_some_iff] at taken
  obtain ⟨call,_,⟨session,events⟩,_,last⟩ := taken
  have relayed := relay_posted call id events { p with calls := p.calls.set id { call with session := session } }
  rw [Option.some.inj last] at relayed
  exact relayed

theorem cancelAll_posted {order : List Nat} {p p' : ClientCalls} {out : List Event}
    (taken : cancelAll order p = some (p',out)) : p'.posted = p.posted := by
  induction order generalizing p out with
  | nil =>
    simp only [cancelAll,Option.some.injEq,Prod.mk.injEq] at taken
    rw [taken.1]
  | cons id rest ih =>
    simp only [cancelAll,Option.bind_eq_bind,Option.bind_eq_some_iff,Option.some.injEq,Prod.mk.injEq] at taken
    obtain ⟨⟨q,first⟩,cancelled,⟨q',later⟩,others,rfl,_⟩ := taken
    exact (ih others).trans (advance_posted cancelled)

/-- A call that `processCompanyRequest` makes is never refused: its backend is
    one of the configured ones. -/
theorem issued_posted {config : AppConfig} (callable : ∀ b ∈ config.country_backend_map, Callable b)
    {backendUrlInfo : Option BackendUrlInfo} {company_id : Bytes}
    (issued : Issued config (.callBackendApi backendUrlInfo company_id)) (p : ClientCalls) :
    (callBackendApi config backendUrlInfo company_id p).1.posted = p.posted := by
  obtain ⟨cache,store,breaker,starts,req,request_received_time,m,call,calling,rfl,rfl⟩ := issued
  obtain ⟨_,_,_,_,reaches⟩ := calling_iff.mp calling
  have supported : call.backend.is_https = false :=
    (callable _ (OrderedMap.mem_of_find reaches.configured)).supported
  unfold callBackendApi
  simp only [supported,Bool.false_eq_true,if_false]

/-- No error is ever posted in place of a call. -/
theorem posted_run {config : AppConfig} (callable : ∀ b ∈ config.country_backend_map, Callable b)
    {actions : List Action} {p : ClientCalls} {log : List Event} (run : Runs.Run (step config) empty actions p log)
    (issued : ∀ a ∈ actions, Issued config a) : p.posted = [] := by
  induction run with
  | start => rfl
  | @next actions p p' log out a _ taken ih =>
    have before := ih fun b member => issued b (by simp [member])
    have last := issued a (by simp)
    cases a with
    | callBackendApi backendUrlInfo company_id =>
      simp only [step,Option.some.injEq] at taken
      have called := issued_posted callable last p
      rw [taken] at called
      exact called.trans before
    | session id action =>
      simp only [step] at taken
      split at taken
      · cases taken
      · exact (advance_posted taken).trans before
    | runPosted =>
      simp only [step,before] at taken
      cases taken
    | cancel_active_backend_calls order =>
      simp only [step] at taken
      split at taken
      · exact (cancelAll_posted taken).trans before
      · cases taken
    | cancel id => exact (advance_posted taken).trans before

/-- `parseUrl` accepts exactly the URLs of the grammar, so the backends of every
    configuration that is loaded are callable, and no call made for a request
    takes one of the branches that refuse it. -/
theorem parseUrl_backends :
    (∀ url urlInfo, ParsesUrl url urlInfo) ∧
    ∀ (hardware_concurrency : UInt32) (files : Bytes → Option Bytes) (startupArguments : OrderedMap Bytes Bytes)
      (config : AppConfig), loadConfiguration hardware_concurrency files startupArguments = .ok config →
      (∀ b ∈ config.country_backend_map, Callable b) ∧
      ∀ actions p log, Runs.Run (step config) empty actions p log → (∀ a ∈ actions, Issued config a) → p.posted = [] := by
  refine ⟨parsesUrl,?_⟩
  intro hardware_concurrency files startupArguments config loaded
  have callable := loaded_callable loaded
  exact ⟨callable,fun actions p log run issued => posted_run callable run issued⟩

/-- A command line with one country, whose URL has a port and ends in a slash. -/
def oneCountry : OrderedMap Bytes Bytes := [(lit "us",lit "http://us-backend:9001/")]

def oneBackend : BackendUrlInfo := ⟨lit "http://us-backend:9001/",lit "us-backend",9001,false⟩

def oneConfig : AppConfig := (loadCountries oneCountry {}).updateDeductions 2

/-- The call for that country is made, and not refused. -/
theorem parseUrl_backends_called : loadConfiguration 2 (fun _ => none) oneCountry = .ok oneConfig ∧
    oneConfig.country_backend_map = [(lit "US",oneBackend)] ∧ Callable (lit "US",oneBackend) ∧
    ∃ p log, Runs.Run (step oneConfig) empty [.callBackendApi (some oneBackend) (lit "1")] p log ∧ p.posted = [] := by
  have loaded : loadConfiguration 2 (fun _ => none) oneCountry = .ok oneConfig := rfl
  have countries : oneConfig.country_backend_map = [(lit "US",oneBackend)] := by decide +kernel
  obtain ⟨callable,unposted⟩ := parseUrl_backends.2 2 (fun _ => none) oneCountry oneConfig loaded
  rw [countries] at callable
  have run : Runs.Run (step oneConfig) empty [.callBackendApi (some oneBackend) (lit "1")]
      (callBackendApi oneConfig (some oneBackend) (lit "1") empty).1 _ := Runs.Run.start.next rfl
  refine ⟨loaded,countries,callable _ (by simp),_,_,run,unposted _ _ _ run ?_⟩
  intro a member
  cases List.mem_singleton.mp member
  exact ⟨.everlasting,[],⟨[]⟩,true,companyRequest,0,epoch,
    ⟨prepared companyRequest,cacheKey (lit "1") (lit "US"),lit "1",oneBackend⟩,by decide +kernel,rfl,rfl⟩

end Facade.ClientCalls
