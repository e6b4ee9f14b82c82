import Facade.BackendUrls

/-!
Which backend a command line gives a country. The arguments pass through two
ordered maps: `Utils::parseArguments` keeps the last value of every key as it is
spelled, and `loadConfiguration` then takes the keys in their byte order and
keeps the last accepted URL of every key in upper case. So the order of the
command line decides between arguments with one spelling of a country, and the
byte order between its spellings (`routes_iff`).
-/
namespace Facade.Configuration
open Strings Streams Http Query Backendify

/-- The key and the value of an argument, where it has the "key=value" format. -/
def parseArgument (arg : Bytes) : Option (Bytes × Bytes) :=
  match arg.findIdx? (· = 61) with
  | some delimiterPos =>
    if delimiterPos > 0 then some (arg.take delimiterPos,arg.drop (delimiterPos + 1)) else none
  | none => none

/-- `Utils::parseArguments`. -/
def parseArguments (args : List Bytes) : Option (OrderedMap Bytes Bytes) :=
  args.foldlM (fun argMap arg => (parseArgument arg).map fun (key,value) => argMap.assign key value) []

/-- Two spellings of one country code. -/
def SameCountry (key c : Bytes) : Prop := isCountryCode key = true ∧ key.map toUpper = c.map toUpper

/-- The last argument with exactly this key has a URL that is accepted. -/
def Names (args : List Bytes) (key : Bytes) (backend : BackendUrlInfo) : Prop :=
  ∃ url, OrderedMap.lastValue key (args.filterMap parseArgument) = some url ∧
    parseUrl url ⟨url,[],0,false⟩ = some backend

/-- The spelling of the country that comes last in byte order names the backend,
    among those that name one. -/
def Chosen (args : List Bytes) (c : Bytes) (backend : BackendUrlInfo) : Prop :=
  ∃ key, SameCountry key c ∧ Names args key backend ∧
    ∀ key', SameCountry key' c → (∃ other, Names args key' other) → ¬ key < key'

theorem foldlM_parseArgument (args : List Bytes) (m : OrderedMap Bytes Bytes) :
    ∀ last, args.foldlM (fun argMap arg => (parseArgument arg).map fun (key,value) => argMap.assign key value) m =
      some last → last = (args.filterMap parseArgument).foldl (fun argMap b => argMap.assign b.1 b.2) m := by
  induction args generalizing m with
  | nil =>
    rintro last ⟨⟩
    rfl
  | cons arg rest ih =>
    intro last parsed
    rw [List.foldlM_cons] at parsed
    obtain ⟨next,first,later⟩ := Option.bind_eq_some_iff.mp parsed
    obtain ⟨b,isPair,rfl⟩ := Option.map_eq_some_iff.mp first
    rw [ih _ last later,List.filterMap_cons_some isPair,List.foldl_cons]

/-- The arguments are kept as a map keeps assignments. -/
theorem parseArguments_eq {args : List Bytes} {m : OrderedMap Bytes Bytes} (parsed : parseArguments args = some m) :
    m = OrderedMap.ofBindings (args.filterMap parseArgument) := foldlM_parseArgument args [] m parsed

/-- The country that an argument configures. -/
def countryBinding (b : Bytes × Bytes) : Option (Bytes × BackendUrlInfo) :=
  if isCountryCode b.1 then (parseUrl b.2 ⟨b.2,[],0,false⟩).map fun backend => (b.1.map toUpper,backend) else none

/-- A URL that is accepted passes the check of its beginning. -/
theorem HttpUrl.beginning {host url : Bytes} {port : Int} (reads : HttpUrl host port url) :
    (lit "http://").isPrefixOf url = true := by
  have begins : lit "http://" <+: url := by
    cases reads with
    | bare tail => exact ⟨host ++ tail,by simp⟩
    | withPort digits tail => exact ⟨host ++ 58 :: digits ++ tail,by simp⟩
  exact List.isPrefixOf_iff_prefix.mpr begins

theorem addCountry_eq (countries : OrderedMap Bytes BackendUrlInfo) (b : Bytes × Bytes) :
    addCountry countries b = (countryBinding b).elim countries fun c => countries.assign c.1 c.2 := by
  obtain ⟨key,value⟩ := b
  unfold addCountry countryBinding
  by_cases code : isCountryCode key = true
  · simp only [code,if_true]
    cases parsed : parseUrl value ⟨value,[],0,false⟩ with
    | none => simp
    | some backend =>
      obtain ⟨_,_,reads,_⟩ := parseUrl_iff.mp parsed
      simp [reads.beginning]
  · simp only [code,Bool.false_eq_true,if_false]
    rfl

theorem foldl_addCountry (m : OrderedMap Bytes Bytes) (countries : OrderedMap Bytes BackendUrlInfo) :
    m.foldl addCountry countries = (m.filterMap countryBinding).foldl (fun m b => m.assign b.1 b.2) countries := by
  induction m generalizing countries with
  | nil => rfl
  | cons b rest ih =>
    rw [List.foldl_cons,ih,addCountry_eq]
    cases made : countryBinding b with
    | none => rw [List.filterMap_cons_none made]; rfl
    | some c => rw [List.filterMap_cons_some made]; rfl

section
variable {args : List Bytes} {m : OrderedMap Bytes Bytes}

/-- The map holds the last value of every key. -/
theorem mem_parseArguments (parsed : parseArguments args = some m) {key value : Bytes} :
    (key,value) ∈ m ↔ OrderedMap.lastValue key (args.filterMap parseArgument) = some value := by
  rw [parseArguments_eq parsed,← OrderedMap.find_ofBindings]
  exact ⟨OrderedMap.find_of_mem (OrderedMap.sorted_ofBindings _),OrderedMap.mem_of_find⟩

theorem countryBinding_iff {key value c : Bytes} {backend : BackendUrlInfo} :
    countryBinding (key,value) = some (c.map toUpper,backend) ↔
      SameCountry key c ∧ parseUrl value ⟨value,[],0,false⟩ = some backend := by
  unfold countryBinding SameCountry
  by_cases code : isCountryCode key = true
  · simp only [code,if_true,Option.map_eq_some_iff,Prod.mk.injEq,true_and]
    constructor
    · rintro ⟨_,accepted,same,rfl⟩
      exact ⟨same,accepted⟩
    · rintro ⟨same,accepted⟩
      exact ⟨backend,accepted,same,rfl⟩
  · simp [code]

/-- The backend of a country in the order of the keys is the one chosen. -/
theorem lastValue_countryBinding (parsed : parseArguments args = some m) {c : Bytes} {backend : BackendUrlInfo} :
    OrderedMap.lastValue (c.map toUpper) (m.filterMap countryBinding) = some backend ↔ Chosen args c backend := by
  have sorted : OrderedMap.Sorted m := by
    rw [parseArguments_eq parsed]
    exact OrderedMap.sorted_ofBindings _
  rw [OrderedMap.lastValue_filterMap sorted]
  constructor
  · rintro ⟨⟨key,url⟩,member,made,greatest⟩
    obtain ⟨same,accepted⟩ := countryBinding_iff.mp made
    refine ⟨key,same,⟨url,(mem_parseArguments parsed).mp member,accepted⟩,?_⟩
    rintro key' same' ⟨other,url',last,accepted'⟩
    exact greatest (key',url') ((mem_parseArguments parsed).mpr last) ⟨other,countryBinding_iff.mpr ⟨same',accepted'⟩⟩
  · rintro ⟨key,same,⟨url,last,accepted⟩,greatest⟩
    refine ⟨(key,url),(mem_parseArguments parsed).mpr last,countryBinding_iff.mpr ⟨same,accepted⟩,?_⟩
    rintro ⟨key',url'⟩ member ⟨other,made⟩
    obtain ⟨same',accepted'⟩ := countryBinding_iff.mp made
    exact greatest key' same' ⟨other,url',(mem_parseArguments parsed).mp member,accepted'⟩

/-- Where some spelling names a backend, one is chosen. -/
theorem chosen_of_names (parsed : parseArguments args = some m) {key c : Bytes} {backend : BackendUrlInfo}
    (same : SameCountry key c) (names : Names args key backend) : ∃ chosen, Chosen args c chosen := by
  obtain ⟨url,last,accepted⟩ := names
  have made : countryBinding (key,url) = some (c.map toUpper,backend) := countryBinding_iff.mpr ⟨same,accepted⟩
  have member := List.mem_filterMap.mpr ⟨(key,url),(mem_parseArguments parsed).mpr last,made⟩
  obtain ⟨chosen,found⟩ := OrderedMap.lastValue_of_mem member
  exact ⟨chosen,(lastValue_countryBinding parsed).mp found⟩

theorem find_loaded (parsed : parseArguments args = some m) {hardware_concurrency : UInt32}
    {files : Bytes → Option Bytes} {config : AppConfig}
    (loaded : loadConfiguration hardware_concurrency files m = .ok config) {c : Bytes} {backend : BackendUrlInfo} :
    config.country_backend_map.find (c.map toUpper) = some backend ↔ Chosen args c backend := by
  rw [loadConfiguration_eq_ok (knownLevels_of_ok loaded),Except.ok.injEq] at loaded
  subst loaded
  show (m.foldl addCountry []).find (c.map toUpper) = some backend ↔ _
  rw [foldl_addCountry,OrderedMap.find_foldl_assign,OrderedMap.find_nil,Option.or_none]
  exact lastValue_countryBinding parsed

end

/-- The country that a request asks for, as it spells it. -/
def requestedCountry (req : Request) : Bytes := param (lit "country_iso") (parseQuery (queryOf req.target))

/-- A backend is chosen for a country exactly when some spelling of it names
    one, and a request that nothing else holds up calls the backend chosen for
    its country. -/
theorem routes_iff {args : List Bytes} {startupArguments : OrderedMap Bytes Bytes}
    (parsed : parseArguments args = some startupArguments) {hardware_concurrency : UInt32}
    {files : Bytes → Option Bytes} {config : AppConfig}
    (loaded : loadConfiguration hardware_concurrency files startupArguments = .ok config) (cache : CacheInterface)
    (store : cache.Store) (breaker : CircuitBreaker) (starts : Bool) (req : Request) (request_received_time : Int)
    (m : Moment) :
    ((∃ backend, Chosen args (requestedCountry req) backend) ↔
      ∃ key backend, SameCountry key (requestedCountry req) ∧ Names args key backend) ∧
    ∀ backend,
      (∃ call, (processCompanyRequest cache config store breaker starts req request_received_time m).1 = .calling call ∧
        call.backend = backend) ↔
      Chosen args (requestedCountry req) backend ∧ idOf req ≠ [] ∧
        (cache.get store (cacheKey (idOf req) (countryOf req)) m.steady).1 = none ∧
        slaMissed config request_received_time m.steady = false ∧
        breaker.isTripped backend.url m.steady = false ∧ starts = true := by
  refine ⟨?_,?_⟩
  · constructor
    · rintro ⟨backend,key,same,names,_⟩
      exact ⟨key,backend,same,names⟩
    · rintro ⟨key,backend,same,names⟩
      exact chosen_of_names parsed same names
  · intro backend
    rw [← find_loaded parsed loaded]
    show _ ↔ config.country_backend_map.find (countryOf req) = some backend ∧ _
    constructor
    · rintro ⟨call,calling,rfl⟩
      obtain ⟨started,_,_,_,reaches⟩ := calling_iff.mp calling
      exact ⟨reaches.configured,reaches.id,reaches.missed,reaches.inTime,reaches.untripped,started⟩
    · rintro ⟨configured,id,missed,inTime,untripped,started⟩
      have country : countryOf req ≠ [] := by
        intro empty
        obtain ⟨key,⟨code,same⟩,_⟩ := (find_loaded parsed loaded (c := requestedCountry req)).mp configured
        have length := congrArg List.length (same.trans empty)
        simp only [isCountryCode,Bool.and_eq_true,decide_eq_true_eq] at code
        simp only [List.length_map,List.length_nil] at length
        omega
      exact ⟨⟨prepared req,cacheKey (idOf req) (countryOf req),idOf req,backend⟩,
        calling_iff.mpr ⟨started,rfl,rfl,rfl,⟨id,country,missed,inTime,configured,untripped⟩⟩,rfl⟩

/-- What the command line leads to for a request that nothing holds up. -/
def routed (args : List Bytes) (req : Request) : Option Outcome := do
  let startupArguments ← parseArguments args
  let config ← (loadConfiguration 2 (fun _ => none) startupArguments).toOption
  some (processCompanyRequest .everlasting config [] ⟨[]⟩ true req 0 epoch).1

/-- The backend of the last argument on the command line that spells the country
    in some way and has a URL that is accepted. -/
def lastOnLine (args : List Bytes) (c : Bytes) : Option BackendUrlInfo :=
  OrderedMap.lastValue (c.map toUpper) ((args.filterMap parseArgument).filterMap countryBinding)

/-- The request calls the backend of that argument, and is not routed without
    one. -/
def RoutesLast (args : List Bytes) (req : Request) : Prop :=
  ∀ backend, (∃ call, routed args req = some (.calling call) ∧ call.backend = backend) ↔
    lastOnLine args (requestedCountry req) = some backend

/-- Two spellings of one country, and one spelling with a URL that is not
    accepted after one that is. -/
def spelledTwice : List Bytes := [lit "us=http://a",lit "US=http://b"]
def givenTwice : List Bytes := [lit "us=http://a",lit "us=a"]

def backendA : BackendUrlInfo := ⟨lit "http://a",lit "a",80,false⟩
def backendB : BackendUrlInfo := ⟨lit "http://b",lit "b",80,false⟩

/-- With two spellings the first argument is called, though the second is the
    last; with one, the accepted URL is overwritten and nothing is called. -/
theorem last_argument_not_routed :
    (requestedCountry companyRequest = lit "us" ∧
      routed spelledTwice companyRequest =
        some (.calling ⟨prepared companyRequest,cacheKey (lit "1") (lit "US"),lit "1",backendA⟩) ∧
      lastOnLine spelledTwice (lit "us") = some backendB ∧ ¬ RoutesLast spelledTwice companyRequest) ∧
    (routed givenTwice companyRequest =
        some (.answered (some (reply (prepared companyRequest) 404 (errorBody (lit "Unconfigured country_iso"))))) ∧
      lastOnLine givenTwice (lit "us") = some backendA ∧ ¬ RoutesLast givenTwice companyRequest) := by
  have country : requestedCountry companyRequest = lit "us" := by decide +kernel
  have first : routed spelledTwice companyRequest =
      some (.calling ⟨prepared companyRequest,cacheKey (lit "1") (lit "US"),lit "1",backendA⟩) := by decide +kernel
  have last : lastOnLine spelledTwice (lit "us") = some backendB := by decide +kernel
  have unrouted : routed givenTwice companyRequest =
      some (.answered (some (reply (prepared companyRequest) 404 (errorBody (lit "Unconfigured country_iso"))))) := by
    decide +kernel
  have valid : lastOnLine givenTwice (lit "us") = some backendA := by decide +kernel
  refine ⟨⟨country,first,last,?_⟩,unrouted,valid,?_⟩
  · intro routes
    have wrong := (routes backendA).mp ⟨_,first,rfl⟩
    rw [country,last] at wrong
    revert wrong
    decide
  · intro routes
    obtain ⟨call,calling,_⟩ := (routes backendA).mpr (by rw [country]; exact valid)
    rw [unrouted] at calling
    cases calling

/-- The two spellings as the map holds them, in their byte order. -/
def spelledMap : OrderedMap Bytes Bytes := [(lit "US",lit "http://b"),(lit "us",lit "http://a")]

def spelledConfig : AppConfig := (loadCountries spelledMap {}).updateDeductions 2

theorem routes_iff_spelled : parseArguments spelledTwice = some spelledMap ∧
    loadConfiguration 2 (fun _ => none) spelledMap = .ok spelledConfig ∧
    (∃ call, (processCompanyRequest .everlasting spelledConfig [] ⟨[]⟩ true companyRequest 0 epoch).1 = .calling call ∧
      call.backend = backendA) ∧ Chosen spelledTwice (requestedCountry companyRequest) backendA := by
  have parsed : parseArguments spelledTwice = some spelledMap := by decide
  have loaded : loadConfiguration 2 (fun _ => none) spelledMap = .ok spelledConfig := rfl
  have calling : ∃ call, (processCompanyRequest .everlasting spelledConfig [] ⟨[]⟩ true companyRequest 0 epoch).1 =
      .calling call ∧ call.backend = backendA :=
    ⟨⟨prepared companyRequest,cacheKey (lit "1") (lit "US"),lit "1",backendA⟩,by decide +kernel,rfl⟩
  refine ⟨parsed,loaded,calling,?_⟩
  exact (((routes_iff parsed loaded .everlasting [] ⟨[]⟩ true companyRequest 0 epoch).2 backendA).mp calling).1

end Facade.Configuration
