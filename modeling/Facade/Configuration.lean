import Facade.AppConfig
import Facade.Regex
import Facade.Streams

/-!
The country map of `Utils::loadConfiguration` (src/utils/Utils.hpp), which the
command line fills: a two-letter key names a country, its value the URL of the
country's backend, which `Utils::parseUrl` takes apart.
-/
namespace Facade.Configuration
open Strings Streams

/-- `Constants::url_regex`: `^(https?):\/\/([^:\/?#]+)(?::(\d+))?(?:[\/?#]|$)`. -/
def url_regex : Regex :=
  .seq (.group 1 (.seq (.literal (lit "http")) (.opt (.literal (lit "s"))))) <|
  .seq (.literal (lit "://")) <|
  .seq (.group 2 (.plus fun c => !(lit ":/?#").contains c)) <|
  .seq (.opt (.seq (.literal (lit ":")) (.group 3 (.plus isDigit)))) <|
  .alt (.byte fun c => (lit "/?#").contains c) .atEnd

/-- `std::stoi` of a row of digits, or nothing when it throws. -/
def stoi (digits : Bytes) : Option Int :=
  if digits = [] ∨ 2147483647 < IStream.decimal digits then none else some (IStream.decimal digits)

/-- The port of a URL: the one given, when it is in range, or 80. -/
def portOf (captures : Regex.Captures) : Option Int :=
  match captures.lookup 3 with
  | some digits => (stoi digits).filter fun port => 0 < port ∧ port ≤ 65535
  | none => some 80

/-- `Utils::parseUrl`: what it leaves in `*urlInfo` when it returns true. HTTPS
    is refused. -/
def parseUrl (url : Bytes) (urlInfo : BackendUrlInfo) : Option BackendUrlInfo := do
  let captures ← url_regex.regex_match url
  let scheme ← captures.lookup 1
  if scheme = lit "https" then none
  else
    let host ← captures.lookup 2
    let port ← portOf captures
    some { urlInfo with backend_host := host, backend_port := port, is_https := false }

/-- Whether a key of the command line looks like a country code. -/
def isCountryCode (key : Bytes) : Bool := key.length = 2 && key.all isAlpha

/-- One argument of the command line. -/
def addCountry (countries : OrderedMap Bytes BackendUrlInfo) (argument : Bytes × Bytes) :
    OrderedMap Bytes BackendUrlInfo :=
  let (key,value) := argument
  if isCountryCode key then
    let country_iso := key.map toUpper
    if (lit "http://").isPrefixOf value || (lit "https://").isPrefixOf value then
      match parseUrl value ⟨value,[],0,false⟩ with
      | some urlInfo => countries.assign country_iso urlInfo
      | none => countries
    else countries
  else countries

/-- The part of `loadConfiguration` that fills the country map, from arguments
    in the order of their keys. -/
def loadCountries (startupArguments : OrderedMap Bytes Bytes) (config : AppConfig) : AppConfig :=
  { config with country_backend_map := startupArguments.foldl addCountry config.country_backend_map }

/-- A country code in upper case. -/
def IsCountry (country_iso : Bytes) : Prop := country_iso.length = 2 ∧ ∀ c ∈ country_iso, isUpper c = true

theorem isCountry_toUpper {key : Bytes} (code : isCountryCode key = true) : IsCountry (key.map toUpper) := by
  simp only [isCountryCode,Bool.and_eq_true,decide_eq_true_eq,List.all_eq_true] at code
  obtain ⟨size,letters⟩ := code
  refine ⟨by simpa using size,?_⟩
  intro c member
  obtain ⟨b,inside,rfl⟩ := List.mem_map.mp member
  exact isUpper_toUpper (letters b inside)

/-- What holds of every binding that an argument can make holds of all that a
    command line adds. -/
theorem forall_loadCountries {P : Bytes × BackendUrlInfo → Prop}
    (new : ∀ key value urlInfo, isCountryCode key = true → parseUrl value ⟨value,[],0,false⟩ = some urlInfo →
      P (key.map toUpper,urlInfo))
    {config : AppConfig} (old : ∀ b ∈ config.country_backend_map, P b) (startupArguments : OrderedMap Bytes Bytes) :
    ∀ b ∈ (loadCountries startupArguments config).country_backend_map, P b := by
  have added : ∀ (countries : OrderedMap Bytes BackendUrlInfo) (argument : Bytes × Bytes), (∀ b ∈ countries, P b) →
      ∀ b ∈ addCountry countries argument, P b := by
    rintro countries ⟨key,value⟩ held
    simp only [addCountry]
    split
    · rename_i code
      split
      · split
        · rename_i urlInfo parsed
          exact OrderedMap.forall_assign (new key value urlInfo code parsed) held
        · exact held
      · exact held
    · exact held
  have fold : ∀ (arguments : OrderedMap Bytes Bytes) (countries : OrderedMap Bytes BackendUrlInfo),
      (∀ b ∈ countries, P b) → ∀ b ∈ arguments.foldl addCountry countries, P b := by
    intro arguments
    induction arguments with
    | nil => intro countries held; exact held
    | cons argument rest ih =>
      intro countries held
      rw [List.foldl_cons]
      exact ih _ (added countries argument held)
  exact fold startupArguments _ old

/-- Every country that a command line configures is a code in upper case. -/
theorem loadCountries_keys {config : AppConfig} (keys : ∀ b ∈ config.country_backend_map, IsCountry b.1)
    (startupArguments : OrderedMap Bytes Bytes) :
    ∀ b ∈ (loadCountries startupArguments config).country_backend_map, IsCountry b.1 := by
  refine forall_loadCountries ?_ keys startupArguments
  intro key value urlInfo code parsed
  exact isCountry_toUpper code

/-- The backend is what its URL is taken apart into. -/
def FromUrl (backend : BackendUrlInfo) : Prop := parseUrl backend.url ⟨backend.url,[],0,false⟩ = some backend

theorem parseUrl_url {url : Bytes} {urlInfo backend : BackendUrlInfo} (parsed : parseUrl url urlInfo = some backend) :
    backend.url = urlInfo.url := by
  simp only [parseUrl,Option.bind_eq_bind,Option.bind_eq_some_iff] at parsed
  obtain ⟨captures,_,scheme,_,parsed⟩ := parsed
  split at parsed
  · cases parsed
  · obtain ⟨host,_,parsed⟩ := Option.bind_eq_some_iff.mp parsed
    obtain ⟨port,_,parsed⟩ := Option.bind_eq_some_iff.mp parsed
    cases parsed
    rfl

theorem loadCountries_urls {config : AppConfig} (urls : ∀ b ∈ config.country_backend_map, FromUrl b.2)
    (startupArguments : OrderedMap Bytes Bytes) :
    ∀ b ∈ (loadCountries startupArguments config).country_backend_map, FromUrl b.2 := by
  refine forall_loadCountries ?_ urls startupArguments
  intro key value urlInfo code parsed
  have same : urlInfo.url = value := parseUrl_url parsed
  show parseUrl urlInfo.url ⟨urlInfo.url,[],0,false⟩ = some urlInfo
  rw [same]
  exact parsed

/-- A URL leads to one backend. -/
theorem FromUrl.eq_of_url {f g : BackendUrlInfo} (left : FromUrl f) (right : FromUrl g) (same : f.url = g.url) :
    f = g := by
  unfold FromUrl at left right
  rw [same,right,Option.some.injEq] at left
  exact left.symm

end Facade.Configuration
