import Mathlib.Data.List.Induction
import Facade.Query

/-!
Form queries. A query is read segment by segment, each cut at its first '=', and
the loop of `Backendify::processCompanyRequest` is compared with that reading:
the segments it reads otherwise are told by their '=' signs and by their place.
-/
namespace Facade.Query
open Strings Streams

/-- A binding, unless its name is empty. -/
def named (key value : Bytes) : Option (Bytes × Bytes) := if key = [] then none else some (key,value)

/-- A segment of a form query, cut at its first '='. -/
def formReading (segment : Bytes) : Option (Bytes × Bytes) :=
  named (urlDecode (segment.takeWhile (· != 61))) (urlDecode (segment.dropWhile (· != 61)).tail)

/-- The form-query parse: the segments between the '&' signs, the last binding of a
    name counts. -/
def formQuery (query : Bytes) : Params := OrderedMap.ofBindings ((query.splitOn 38).filterMap formReading)

/-- A segment and whether it is the last one of its query. -/
structure Segment where
  last : Bool
  text : Bytes
deriving DecidableEq,Repr

def placed : List Bytes → List Segment
  | [] => []
  | [text] => [⟨true,text⟩]
  | text :: next :: rest => ⟨false,text⟩ :: placed (next :: rest)

def segments (query : Bytes) : List Segment := placed (query.splitOn 38)

namespace Segment

def asForm (s : Segment) : Option (Bytes × Bytes) := formReading s.text

/-- What the loop makes of a segment: the pieces around its last '=' are the name
    and the value, and the code after the loop has rules of its own. -/
def asLoop (s : Segment) : Option (Bytes × Bytes) :=
  match (s.text.splitOn 61).reverse with
  | [] => none
  | [key] => if s.last then named (urlDecode key) [] else none
  | value :: key :: _ => if s.last ∧ value = [] then none else named (urlDecode key) (urlDecode value)

/-- The segments that the loop reads as they stand, by the pieces between their '='
    signs: a name alone only in the last place, `name=` only before it, and a further
    '=' only where no name is read. -/
def WellCut (last : Bool) : List Bytes → Prop
  | [] => True
  | [name] => last = true ∨ name = []
  | [name,value] => last = true → value = [] → name = []
  | name :: pieces => name = [] ∧ (pieces.dropLast.getLast? = some [] ∨ last = true ∧ pieces.getLast? = some [])

instance (last : Bool) : (pieces : List Bytes) → Decidable (WellCut last pieces)
  | [] => inferInstanceAs (Decidable True)
  | [_] => inferInstanceAs (Decidable (_ ∨ _))
  | [_,_] => inferInstanceAs (Decidable (_ → _ → _))
  | _ :: _ :: _ :: _ => inferInstanceAs (Decidable (_ ∧ _))

def WellRead (s : Segment) : Prop := WellCut s.last (s.text.splitOn 61)

instance (s : Segment) : Decidable s.WellRead := inferInstanceAs (Decidable (WellCut _ _))

/-- The names that a segment binds, by either reading. -/
def names (s : Segment) : List Bytes := (s.asForm.toList ++ s.asLoop.toList).map Prod.fst

end Segment

/-- Both readings of the query leave a name of the segment with one value: the
    segment is overruled by a later one or repeats an earlier one. -/
def MadeGood (query : Bytes) (s : Segment) : Prop :=
  ∀ name ∈ s.names, OrderedMap.lastValue name ((segments query).filterMap Segment.asLoop) =
    OrderedMap.lastValue name ((segments query).filterMap Segment.asForm)

instance (query : Bytes) (s : Segment) : Decidable (MadeGood query s) :=
  inferInstanceAs (Decidable (∀ name ∈ s.names, _ = _))

/-- No name is bound by two segments. -/
def NamesOnce (query : Bytes) : Prop :=
  (segments query).Pairwise (fun s t => ∀ name ∈ s.names, name ∉ t.names)

instance (query : Bytes) : Decidable (NamesOnce query) := inferInstanceAs (Decidable (List.Pairwise _ _))

example : (segments (lit "id=a=b&us&iso=")).filter (fun s => ¬ s.WellRead) =
    [⟨false,lit "id=a=b"⟩,⟨false,lit "us"⟩,⟨true,lit "iso="⟩] := by decide +kernel

/-- The loop's state in a segment of which `text` has been read. -/
def scanned (params : Params) (text : Bytes) : Parser := text.foldl Parser.next ⟨params,[],[],[],true⟩

theorem scanned_concat (params : Params) (text : Bytes) (c : UInt8) :
    scanned params (text ++ [c]) = (scanned params text).next c := by
  simp [scanned]

theorem splitOn_concat_ne {sep c : UInt8} (differs : c ≠ sep) (text : Bytes) :
    ∃ front final, text.splitOn sep = front ++ [final] ∧ (text ++ [c]).splitOn sep = front ++ [final ++ [c]] := by
  induction text with
  | nil => exact ⟨[],[],by simp,by simp [List.splitOn_cons_eq_if_modifyHead,differs]⟩
  | cons d rest ih =>
    obtain ⟨front,final,before,after⟩ := ih
    rw [List.cons_append,List.splitOn_cons_eq_if_modifyHead,List.splitOn_cons_eq_if_modifyHead,before,after]
    by_cases same : d = sep
    · exact ⟨[] :: front,final,by simp [same],by simp [same]⟩
    · cases front with
      | nil => exact ⟨[],d :: final,by simp [same],by simp [same]⟩
      | cons first more => exact ⟨(d :: first) :: more,final,by simp [same],by simp [same]⟩

/-- The loop keeps the piece after the last '=' and, decoded, the one before it. -/
theorem scanned_eq (params : Params) {text : Bytes} (inside : 38 ∉ text) :
    scanned params text = match (text.splitOn 61).reverse with
      | [] => ⟨params,[],[],[],true⟩
      | [current] => ⟨params,current,[],[],true⟩
      | current :: key :: _ => ⟨params,current,urlDecode key,[],false⟩ := by
  induction text using List.reverseRecOn with
  | nil => rfl
  | append_singleton text c ih =>
    simp only [List.mem_append,List.mem_singleton,not_or] at inside
    have earlier := ih inside.1
    rw [scanned_concat,earlier]
    by_cases equals : c = 61
    · subst equals
      rw [List.splitOn_append_cons_self]
      cases pieces : (text.splitOn 61).reverse with
      | nil => simp at pieces
      | cons current more =>
        cases more with
        | nil => simp [pieces,Parser.next]
        | cons key others => simp [pieces,Parser.next]
    · obtain ⟨front,final,before,after⟩ := splitOn_concat_ne equals text
      rw [before,after,List.reverse_append,List.reverse_append]
      have plain : c ≠ 38 := Ne.symm inside.2
      cases front.reverse with
      | nil => simp [Parser.next,equals,plain]
      | cons key others => simp [Parser.next,equals,plain]

/-- One assignment, if there is a binding. -/
def bind (params : Params) (binding : Option (Bytes × Bytes)) : Params :=
  (binding.map (fun b => params.assign b.1 b.2)).getD params

theorem bind_named (params : Params) (key value : Bytes) :
    bind params (named key value) = if key = [] then params else params.assign key value := by
  unfold bind named
  split <;> rfl

theorem urlDecode_cases (c : UInt8) (text : Bytes) :
    (∃ d, urlDecode (c :: text) = d :: urlDecode text) ∨
    ∃ a b rest d, text = a :: b :: rest ∧ (IStream.ofBytes [a,b]).getHex.1 ≠ none ∧
      urlDecode (c :: text) = d :: urlDecode rest := by
  by_cases percent : c = 37
  · subst percent
    match text with
    | [] => exact .inl ⟨_,rfl⟩
    | [a] => exact .inl ⟨_,rfl⟩
    | a :: b :: rest =>
      rw [urlDecode_percent]
      cases number : (IStream.ofBytes [a,b]).getHex.1 with
      | some value => exact .inr ⟨a,b,rest,_,rfl,by simp [number],rfl⟩
      | none => exact .inl ⟨_,rfl⟩
  · exact .inl ⟨_,urlDecode_cons percent text⟩

theorem urlDecode_eq_nil (text : Bytes) : urlDecode text = [] ↔ text = [] := by
  cases text with
  | nil => simp [urlDecode]
  | cons c rest =>
    rcases urlDecode_cases c rest with ⟨d,decoded⟩ | ⟨a,b,more,d,-,-,decoded⟩
    · simp [decoded]
    · simp [decoded]

theorem getHex_equals (b : UInt8) : (IStream.ofBytes [61,b]).getHex.1 = none := by
  have all : ∀ b : UInt8, (IStream.ofBytes [61,b]).getHex.1 = none := forall_byte (by decide +kernel)
  exact all b

/-- An '=' and what precedes it decode to something. -/
theorem urlDecode_longer (before after : Bytes) :
    (urlDecode after).length < (urlDecode (before ++ 61 :: after)).length := by
  match before with
  | [] =>
    rw [List.nil_append,urlDecode_cons (by decide)]
    exact Nat.lt_succ_self _
  | c :: more =>
    rcases urlDecode_cases c (more ++ 61 :: after) with ⟨d,decoded⟩ | ⟨a,b,rest,d,cut,number,decoded⟩
    · have longer := urlDecode_longer more after
      simp only [List.cons_append,decoded,List.length_cons]
      omega
    · rw [List.cons_append,decoded]
      match more with
      | [] =>
        -- '=' is no hexadecimal digit
        obtain ⟨rfl,-⟩ := List.cons.inj cut
        exact absurd (getHex_equals b) number
      | [e] =>
        have rest_eq : after = rest := by simpa using (List.cons.inj (List.cons.inj cut).2).2
        simp [rest_eq]
      | e :: f :: others =>
        have rest_eq : others ++ 61 :: after = rest := by simpa using (List.cons.inj (List.cons.inj cut).2).2
        have longer := urlDecode_longer others after
        rw [rest_eq] at longer
        simp only [List.length_cons]
        omega
termination_by before.length

/-- A segment that an '&' ends. -/
theorem scanned_inner (params : Params) {text : Bytes} (inside : 38 ∉ text) :
    (scanned params text).next 38 = scanned (bind params (Segment.mk false text).asLoop) [] := by
  rw [scanned_eq params inside]
  unfold Segment.asLoop
  cases (text.splitOn 61).reverse with
  | nil => simp [Parser.next,Parser.store,scanned,bind]
  | cons current more =>
    cases more with
    | nil => simp [Parser.next,Parser.store,scanned,bind]
    | cons key others => simp [Parser.next,Parser.store,scanned,bind_named]

/-- The segment that the query ends. -/
theorem scanned_last (params : Params) {text : Bytes} (inside : 38 ∉ text) :
    (scanned params text).finish = bind params (Segment.mk true text).asLoop := by
  rw [scanned_eq params inside]
  unfold Segment.asLoop
  cases (text.splitOn 61).reverse with
  | nil => simp [Parser.finish,bind]
  | cons current more =>
    cases more with
    | nil =>
      by_cases empty : current = []
      · simp [Parser.finish,bind_named,empty,urlDecode]
      · simp [Parser.finish,Parser.store,bind_named,empty]
    | cons key others =>
      by_cases empty : current = []
      · simp [Parser.finish,bind,empty]
      · simp [Parser.finish,Parser.store,bind_named,empty]

/-- The bindings of a list of segments, made one after another. -/
def bindAll (params : Params) (readings : List (Option (Bytes × Bytes))) : Params := readings.foldl bind params

/-- The loop over the rest of a query, `text` being what it has read of a segment. -/
theorem foldl_next (query text : Bytes) (params : Params) (inside : 38 ∉ text) :
    (query.foldl Parser.next (scanned params text)).finish =
      bindAll params ((placed ((query.splitOn 38).modifyHead (text ++ ·))).map Segment.asLoop) := by
  induction query generalizing text params with
  | nil =>
    simp [placed,bindAll,scanned_last params inside]
  | cons c rest ih =>
    rw [List.foldl_cons,List.splitOn_cons_eq_if_modifyHead]
    by_cases ampersand : c = 38
    · subst ampersand
      rw [scanned_inner params inside,ih [] _ (by simp)]
      cases pieces : rest.splitOn 38 with
      | nil => simp at pieces
      | cons first others => simp [placed,bindAll]
    · have still : 38 ∉ text ++ [c] := by simp [inside,Ne.symm ampersand]
      rw [← scanned_concat,ih _ params still]
      cases rest.splitOn 38 with
      | nil => simp [ampersand]
      | cons first others => simp [ampersand]

theorem bindAll_eq (readings : List (Option (Bytes × Bytes))) (params : Params) :
    bindAll params readings = (readings.filterMap id).foldl (fun m b => OrderedMap.assign b.1 b.2 m) params := by
  unfold bindAll
  induction readings generalizing params with
  | nil => rfl
  | cons reading rest ih =>
    cases reading with
    | none => simpa [bind] using ih params
    | some binding => simpa [bind] using ih _

/-- The loop assigns, segment by segment, the binding it reads. -/
theorem parseQuery_eq (query : Bytes) :
    parseQuery query = OrderedMap.ofBindings ((segments query).filterMap Segment.asLoop) := by
  have read := foldl_next query [] [] (by simp)
  have whole : (query.splitOn 38).modifyHead ([] ++ ·) = query.splitOn 38 := by
    cases query.splitOn 38 <;> simp
  rw [whole,bindAll_eq] at read
  simpa [parseQuery,segments,OrderedMap.ofBindings,scanned,Parser.start,List.filterMap_map] using read

theorem placed_text (texts : List Bytes) : (placed texts).map Segment.text = texts := by
  fun_induction placed texts with
  | case1 => rfl
  | case2 => rfl
  | case3 text next rest ih => simp [ih]

theorem formQuery_eq (query : Bytes) :
    formQuery query = OrderedMap.ofBindings ((segments query).filterMap Segment.asForm) := by
  have texts := placed_text (query.splitOn 38)
  unfold formQuery segments
  nth_rewrite 1 [← texts]
  rw [List.filterMap_map]
  rfl

/-- The first piece is what precedes the first '=', the others are what follows it. -/
theorem splitOn_cut {text first : Bytes} {others : List Bytes} (pieces : text.splitOn 61 = first :: others) :
    text.takeWhile (· != 61) = first ∧ (text.dropWhile (· != 61)).tail = [61].intercalate others := by
  induction text generalizing first others with
  | nil =>
    obtain ⟨rfl,rfl⟩ : [] = first ∧ [] = others := by simpa using pieces
    simp
  | cons c rest ih =>
    rw [List.splitOn_cons_eq_if_modifyHead] at pieces
    by_cases equals : c = 61
    · subst equals
      obtain ⟨rfl,rfl⟩ : [] = first ∧ rest.splitOn 61 = others := by simpa using pieces
      simp
    · cases split : rest.splitOn 61 with
      | nil => simp at split
      | cons head more =>
        obtain ⟨rfl,rfl⟩ : c :: head = first ∧ more = others := by simpa [equals,split] using pieces
        simpa [equals] using ih split

theorem intercalate_concat (front : List Bytes) (key value : Bytes) :
    [61].intercalate (front ++ [key,value]) = [61].intercalate (front ++ [key]) ++ 61 :: value := by
  induction front with
  | nil => simp
  | cons piece rest ih =>
    rw [List.cons_append,List.cons_append,List.intercalate_cons_of_ne_nil (by simp),
      List.intercalate_cons_of_ne_nil (by simp),ih]
    simp

theorem none_eq_named (key value : Bytes) : none = named (urlDecode key) value ↔ key = [] := by
  by_cases empty : key = []
  · simp [named,empty,urlDecode]
  · simp [named,empty,urlDecode_eq_nil]

/-- The two readings of a segment with two or more '=' signs agree only where both
    read no name. -/
theorem named_eq_named (first key value front : Bytes) :
    named (urlDecode key) (urlDecode value) = named (urlDecode first) (urlDecode (front ++ 61 :: value)) ↔
      first = [] ∧ key = [] := by
  have longer := urlDecode_longer front value
  by_cases noKey : key = []
  · by_cases noFirst : first = []
    · simp [named,noKey,noFirst,urlDecode]
    · simp [named,noKey,noFirst,urlDecode,urlDecode_eq_nil]
  · by_cases noFirst : first = []
    · simp [named,noKey,noFirst,urlDecode,urlDecode_eq_nil]
    · have differ : urlDecode value ≠ urlDecode (front ++ 61 :: value) := by
        intro same
        rw [same] at longer
        omega
      simp [named,noKey,noFirst,urlDecode_eq_nil,differ]

theorem exists_last_two (second third : Bytes) (rest : List Bytes) :
    ∃ front key value, second :: third :: rest = front ++ [key,value] := by
  induction rest generalizing second third with
  | nil => exact ⟨[],second,third,rfl⟩
  | cons fourth more ih =>
    obtain ⟨front,key,value,ending⟩ := ih third fourth
    exact ⟨second :: front,key,value,by rw [ending]; rfl⟩

/-- The loop and the form-query parse agree on the segments that the loop reads as
    they stand, and on no others. -/
theorem Segment.asLoop_eq_asForm (s : Segment) : s.asLoop = s.asForm ↔ s.WellRead := by
  unfold Segment.asLoop Segment.asForm formReading Segment.WellRead
  cases pieces : s.text.splitOn 61 with
  | nil => simp at pieces
  | cons first others =>
    obtain ⟨cut,tail⟩ := splitOn_cut pieces
    rw [cut,tail]
    match others with
    | [] =>
      by_cases final : s.last = true
      · simp [Segment.WellCut,final,urlDecode]
      · simp [Segment.WellCut,final,none_eq_named]
    | [value] =>
      by_cases dropped : s.last = true ∧ value = []
      · simp [Segment.WellCut,dropped,none_eq_named]
      · simp only [Segment.WellCut,List.reverse_cons,List.reverse_nil,List.nil_append,List.cons_append,dropped,if_false,
          List.intercalate_singleton,true_iff]
        exact fun final empty => absurd ⟨final,empty⟩ dropped
    | second :: third :: rest =>
      obtain ⟨front,key,value,ending⟩ := exists_last_two second third rest
      have reversed : (first :: second :: third :: rest).reverse = value :: key :: (front.reverse ++ [first]) := by
        simp [ending]
      have penultimate : (front ++ [key,value]).dropLast.getLast? = some key := by simp
      have final : (front ++ [key,value]).getLast? = some value := by simp
      show _ ↔ first = [] ∧ ((second :: third :: rest).dropLast.getLast? = some [] ∨
        s.last = true ∧ (second :: third :: rest).getLast? = some [])
      rw [reversed,ending,intercalate_concat,penultimate,final]
      by_cases dropped : s.last = true ∧ value = []
      · simp [dropped,none_eq_named]
      · simp only [dropped,if_false,named_eq_named,Option.some.injEq,or_false]

theorem Segment.mem_names {s : Segment} {name value : Bytes} :
    s.asForm = some (name,value) ∨ s.asLoop = some (name,value) → name ∈ s.names := by
  rintro (form | loop)
  · simp [Segment.names,form]
  · simp [Segment.names,loop]

theorem lastValue_cons (reading : Segment → Option (Bytes × Bytes)) (name : Bytes) (s : Segment) (rest : List Segment) :
    OrderedMap.lastValue name ((s :: rest).filterMap reading) =
      (OrderedMap.lastValue name (rest.filterMap reading)).or (OrderedMap.lastValue name (reading s).toList) := by
  rw [← OrderedMap.lastValue_append,List.filterMap_cons]
  cases reading s <;> rfl

/-- A name that no misread segment binds has one value by both readings. -/
theorem lastValue_wellRead (name : Bytes) (segs : List Segment)
    (read : ∀ s ∈ segs, name ∈ s.names → s.WellRead) :
    OrderedMap.lastValue name (segs.filterMap Segment.asLoop) =
      OrderedMap.lastValue name (segs.filterMap Segment.asForm) := by
  induction segs with
  | nil => rfl
  | cons s rest ih =>
    have later := ih (fun t member => read t (by simp [member]))
    have here : OrderedMap.lastValue name s.asLoop.toList = OrderedMap.lastValue name s.asForm.toList := by
      by_cases bound : name ∈ s.names
      · rw [(Segment.asLoop_eq_asForm s).mpr (read s (by simp) bound)]
      · rw [OrderedMap.lastValue_eq_none,OrderedMap.lastValue_eq_none]
        · rintro ⟨key,value⟩ member rfl
          exact bound (Segment.mem_names (.inl (by simpa using member)))
        · rintro ⟨key,value⟩ member rfl
          exact bound (Segment.mem_names (.inr (by simpa using member)))
    rw [lastValue_cons,lastValue_cons,later,here]

/-- A name that one segment alone binds has the value which that segment gives it. -/
theorem lastValue_once {reading : Segment → Option (Bytes × Bytes)} {name : Bytes} {before after : List Segment}
    {s : Segment} (binds : ∀ t value, reading t = some (name,value) → name ∈ t.names)
    (earlier : ∀ t ∈ before, name ∉ t.names) (later : ∀ t ∈ after, name ∉ t.names) :
    OrderedMap.lastValue name ((before ++ s :: after).filterMap reading) =
      OrderedMap.lastValue name (reading s).toList := by
  have silent : ∀ segs : List Segment, (∀ t ∈ segs, name ∉ t.names) →
      OrderedMap.lastValue name (segs.filterMap reading) = none := by
    intro segs unbound
    apply OrderedMap.lastValue_eq_none
    rintro ⟨key,value⟩ member rfl
    obtain ⟨t,inside,bound⟩ := List.mem_filterMap.mp member
    exact unbound t inside (binds t value bound)
  rw [List.filterMap_append,OrderedMap.lastValue_append,lastValue_cons,silent before earlier,silent after later]
  simp

/-- Readings that give each name of the segment the same value are one. -/
theorem Segment.wellRead_of_names {s : Segment}
    (agree : ∀ name ∈ s.names, OrderedMap.lastValue name s.asLoop.toList = OrderedMap.lastValue name s.asForm.toList) :
    s.WellRead := by
  rw [← Segment.asLoop_eq_asForm]
  cases loop : s.asLoop with
  | none =>
    cases form : s.asForm with
    | none => rfl
    | some binding =>
      have same := agree binding.1 (Segment.mem_names (.inl form))
      simp [loop,form,OrderedMap.lastValue] at same
  | some binding =>
    have same := agree binding.1 (Segment.mem_names (.inr loop))
    cases form : s.asForm with
    | none => simp [loop,form,OrderedMap.lastValue] at same
    | some other =>
      simp only [loop,form,Option.toList_some,OrderedMap.lastValue,Option.none_or,if_true] at same
      split at same
      · rename_i key
        rw [Option.some.injEq] at same
        rw [Prod.ext key same]
      · cases same

theorem parseQuery_eq_iff (query : Bytes) : parseQuery query = formQuery query ↔
    ∀ name, OrderedMap.lastValue name ((segments query).filterMap Segment.asLoop) =
      OrderedMap.lastValue name ((segments query).filterMap Segment.asForm) := by
  rw [parseQuery_eq,formQuery_eq]
  constructor
  · intro same name
    rw [← OrderedMap.find_ofBindings,same,OrderedMap.find_ofBindings]
  · intro same
    apply OrderedMap.eq_of_find (OrderedMap.sorted_ofBindings _) (OrderedMap.sorted_ofBindings _)
    intro name
    rw [OrderedMap.find_ofBindings,OrderedMap.find_ofBindings,same]

/-- The loop builds the parameters of the form-query parse when every segment it
    misreads is made good by the others; where no name is bound twice, when it
    misreads none. -/
theorem parseQuery_form_iff (query : Bytes) :
    (parseQuery query = formQuery query ↔ ∀ s ∈ segments query, ¬ s.WellRead → MadeGood query s) ∧
    (NamesOnce query → (parseQuery query = formQuery query ↔ ∀ s ∈ segments query, s.WellRead)) := by
  rw [parseQuery_eq_iff]
  refine ⟨⟨?_,?_⟩,fun once => ⟨?_,?_⟩⟩
  · intro same s _ _ name _
    exact same name
  · intro good name
    by_cases misread : ∃ s ∈ segments query, name ∈ s.names ∧ ¬ s.WellRead
    · obtain ⟨s,inside,bound,wrong⟩ := misread
      exact good s inside wrong name bound
    · apply lastValue_wellRead
      intro s inside bound
      by_contra wrong
      exact misread ⟨s,inside,bound,wrong⟩
  · intro same s inside
    obtain ⟨before,after,cut⟩ := List.append_of_mem inside
    rw [NamesOnce,cut,List.pairwise_append,List.pairwise_cons] at once
    obtain ⟨-,⟨later,-⟩,earlier⟩ := once
    apply Segment.wellRead_of_names
    intro name bound
    have unboundBefore : ∀ t ∈ before, name ∉ t.names := fun t member also => earlier t member s (by simp) name also bound
    have unboundAfter : ∀ t ∈ after, name ∉ t.names := fun t member => later t member name bound
    have values := same name
    rw [cut,lastValue_once (fun t value loop => Segment.mem_names (.inr loop)) unboundBefore unboundAfter,
      lastValue_once (fun t value form => Segment.mem_names (.inl form)) unboundBefore unboundAfter] at values
    exact values
  · intro read name
    exact lastValue_wellRead name _ (fun s inside _ => read s inside)

theorem parseQuery_form_iff_plain : parseQuery (lit "id=a%2Fb&country_iso=us") = formQuery (lit "id=a%2Fb&country_iso=us") :=
  ((parseQuery_form_iff (lit "id=a%2Fb&country_iso=us")).2 (by decide +kernel)).mpr (by decide +kernel)

/-- A value with an '=' of its own loses its name. -/
theorem equals_in_value_misread : parseQuery (lit "id=a=b&country_iso=us") ≠ formQuery (lit "id=a=b&country_iso=us") := by
  decide +kernel

end Facade.Query
