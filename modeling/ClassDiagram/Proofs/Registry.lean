import ClassDiagram.Reader
import Mathlib.Data.List.Basic

/-!
# The order in which registered items are tried

A registry sees one registration after the other, under scopes that may be written in different
ways. `Registry.Records` says what it holds behind a history of registrations: under each scope the
registrations of that scope, stably sorted by priority. One more registration keeps this
(`Records.add`), so it holds behind every history (`Records.addAll`), and there is only one stably
sorted list (`StablySorted.unique`), which is the one that a stable sort of the whole history gives.
For the same reason it makes no difference whether a new entry is put into its place, as it is here,
or appended and sorted together with the others (`Records.add_eq`).

For a reader this means that of the matchers that accept a line the one with the least priority is
heard, and among those of equal priority the one that was registered first: `Answers` says so
without any sorting. A body matcher that accepts is heard before all top matchers.
-/

namespace ClassDiagram

variable {α : Type}

/-! ## Stable sorting -/

/-- The entries in the order of their priorities, where entries of one priority keep the order that
they had. -/
structure StablySorted (entries sorted : List (Int × α)) : Prop where
  ordered : sorted.Pairwise fun first second ↦ first.1 ≤ second.1
  ties : ∀ priority, sorted.filter (·.1 = priority) = entries.filter (·.1 = priority)

/-- Whether the first entry may stand in front of the second. -/
def byPriority (first second : Int × α) : Bool := first.1 ≤ second.1

theorem StablySorted.mem_iff {entries sorted : List (Int × α)} (h : StablySorted entries sorted)
    {entry : Int × α} : entry ∈ sorted ↔ entry ∈ entries := by
  have hmem : ∀ list : List (Int × α), entry ∈ list ↔ entry ∈ list.filter (·.1 = entry.1) := by
    simp
  rw [hmem sorted, h.ties, ← hmem]

/-- The first entry of a list in order has the least priority. -/
theorem head_le_of_ordered {first entry : Int × α} {rest : List (Int × α)}
    (h : (first :: rest).Pairwise fun first second ↦ first.1 ≤ second.1)
    (hentry : entry ∈ first :: rest) : first.1 ≤ entry.1 := by
  rcases List.mem_cons.1 hentry with heq | hrest
  · exact Int.le_of_eq (congrArg Prod.fst heq.symm)
  · exact List.rel_of_pairwise_cons h hrest

/-- Two lists in order that have the same entries of each priority are the same. -/
theorem eq_of_ordered_of_ties {sorted other : List (Int × α)}
    (hordered : sorted.Pairwise fun first second ↦ first.1 ≤ second.1)
    (hordered' : other.Pairwise fun first second ↦ first.1 ≤ second.1)
    (hties : ∀ priority, sorted.filter (·.1 = priority) = other.filter (·.1 = priority)) :
    sorted = other := by
  induction sorted generalizing other with
  | nil =>
      cases other with
      | nil => rfl
      | cons entry rest =>
          have hhead := hties entry.1
          simp at hhead
  | cons entry rest ih =>
      cases other with
      | nil =>
          have hhead := hties entry.1
          simp at hhead
      | cons entry' rest' =>
          -- each head is among the entries of the other list, so neither priority is the smaller
          have hle : entry'.1 ≤ entry.1 := by
            have hmem : entry ∈ (entry' :: rest').filter (·.1 = entry.1) := by
              rw [← hties]
              simp
            exact head_le_of_ordered hordered' (List.mem_of_mem_filter hmem)
          have hge : entry.1 ≤ entry'.1 := by
            have hmem : entry' ∈ (entry :: rest).filter (·.1 = entry'.1) := by
              rw [hties]
              simp
            exact head_le_of_ordered hordered (List.mem_of_mem_filter hmem)
          have hsame : entry.1 = entry'.1 := by omega
          have hfirst := hties entry.1
          rw [List.filter_cons_of_pos (by simp), List.filter_cons_of_pos (by simp [hsame])]
            at hfirst
          obtain ⟨hhead, -⟩ := List.cons.inj hfirst
          have hrest : rest = rest' := by
            refine ih hordered.of_cons hordered'.of_cons ?_
            intro priority
            have htail := hties priority
            rw [hhead, List.filter_cons, List.filter_cons] at htail
            split at htail
            · exact (List.cons.inj htail).2
            · exact htail
          rw [hhead, hrest]

/-- The entries determine the sorted list. -/
theorem StablySorted.unique {entries sorted other : List (Int × α)}
    (h : StablySorted entries sorted) (h' : StablySorted entries other) : sorted = other :=
  eq_of_ordered_of_ties h.ordered h'.ordered fun priority ↦
    (h.ties priority).trans (h'.ties priority).symm

/-- The stable sort of the library gives the stably sorted list. -/
theorem stablySorted_mergeSort (entries : List (Int × α)) :
    StablySorted entries (entries.mergeSort byPriority) := by
  have htrans : ∀ a b c : Int × α, byPriority a b → byPriority b c → byPriority a c := by
    simp only [byPriority, decide_eq_true_eq]
    intro a b c hab hbc
    omega
  have htotal : ∀ a b : Int × α, byPriority a b || byPriority b a := by
    simp only [byPriority, Bool.or_eq_true, decide_eq_true_eq]
    intro a b
    omega
  refine ⟨(List.pairwise_mergeSort htrans htotal entries).imp (by simp [byPriority]), ?_⟩
  intro priority
  -- the entries of one priority are a sorted part of the list, and sorting keeps such parts
  have hequal : (entries.filter (·.1 = priority)).Pairwise fun a b ↦ byPriority a b := by
    refine List.pairwise_of_forall_mem_list fun a ha b hb ↦ ?_
    simp only [List.mem_filter, decide_eq_true_eq] at ha hb
    simp [byPriority, ha.2, hb.2]
  have hpart : (entries.filter (·.1 = priority)).Sublist (entries.mergeSort byPriority) :=
    List.sublist_mergeSort htrans htotal hequal List.filter_sublist
  have hkept := hpart.filter (·.1 = priority)
  rw [List.filter_filter] at hkept
  simp only [Bool.and_self] at hkept
  exact (hkept.eq_of_length ((List.mergeSort_perm entries byPriority).filter _).length_eq.symm).symm

namespace Registry

theorem mem_place {priority : Int} {item : α} {entries : List (Int × α)} {entry : Int × α} :
    entry ∈ place priority item entries ↔ entry = (priority, item) ∨ entry ∈ entries := by
  induction entries with
  | nil => simp [place]
  | cons first rest ih =>
      unfold place
      split
      · rw [List.mem_cons, ih, List.mem_cons, or_left_comm]
      · rw [List.mem_cons]

/-- An entry that is put into a sorted list comes behind the entries of its priority. -/
theorem filter_place {entries : List (Int × α)}
    (h : entries.Pairwise fun first second ↦ first.1 ≤ second.1) (priority : Int) (item : α)
    (level : Int) :
    (place priority item entries).filter (·.1 = level) =
      (entries ++ [(priority, item)]).filter (·.1 = level) := by
  induction entries with
  | nil => rfl
  | cons first rest ih =>
      by_cases hfirst : first.1 ≤ priority
      · rw [place, if_pos hfirst, List.cons_append, List.filter_cons, List.filter_cons,
          ih h.of_cons]
      · rw [place, if_neg hfirst]
        -- all entries from here on have a higher priority
        by_cases hlevel : priority = level
        · have hnone : (first :: rest).filter (·.1 = level) = [] := by
            rw [List.filter_eq_nil_iff]
            intro entry hentry
            have hle := head_le_of_ordered h hentry
            simp only [decide_eq_true_eq]
            omega
          rw [List.filter_append, hnone, List.filter_cons_of_pos (by simpa using hlevel), hnone]
          simp [hlevel]
        · rw [List.filter_append, List.filter_cons_of_neg (by simpa using hlevel)]
          simp [hlevel]

/-- Putting an entry into a stably sorted list is sorting with the entry at the end. -/
theorem stablySorted_place {entries sorted : List (Int × α)} (h : StablySorted entries sorted)
    (priority : Int) (item : α) :
    StablySorted (entries ++ [(priority, item)]) (place priority item sorted) where
  ordered := by
    have hordered := h.ordered
    clear h
    induction sorted with
    | nil => exact List.pairwise_singleton _ _
    | cons first rest ih =>
        unfold place
        split
        · next hfirst =>
            refine List.pairwise_cons.2 ⟨?_, ih hordered.of_cons⟩
            intro entry hentry
            rcases mem_place.1 hentry with heq | hrest
            · rw [heq]
              exact hfirst
            · exact List.rel_of_pairwise_cons hordered hrest
        · next hfirst =>
            refine List.pairwise_cons.2 ⟨?_, hordered⟩
            intro entry hentry
            have hle := head_le_of_ordered hordered hentry
            show priority ≤ entry.1
            omega
  ties := by
    intro level
    rw [filter_place h.ordered, List.filter_append, List.filter_append, h.ties]

/-- Putting an entry into a list in order is appending it and sorting stably. -/
theorem place_eq_mergeSort {sorted : List (Int × α)}
    (h : sorted.Pairwise fun first second ↦ first.1 ≤ second.1) (priority : Int) (item : α) :
    place priority item sorted = (sorted ++ [(priority, item)]).mergeSort byPriority := by
  have hself : StablySorted sorted sorted := ⟨h, fun _ ↦ rfl⟩
  exact (stablySorted_place hself priority item).unique (stablySorted_mergeSort _)

end Registry

/-! ## Histories of registrations -/

/-- One registration of an item. -/
structure Registration (α : Type) where
  scope : String
  priority : Int
  item : α

namespace Registration

/-- Whether the registration is under a scope, in whatever way the two are written. -/
def isUnder (registration : Registration α) (scope : String) : Bool :=
  Registry.scopeKey registration.scope == Registry.scopeKey scope

/-- What a registry keeps of the registration. -/
def entry (registration : Registration α) : Int × α := (registration.priority, registration.item)

/-- The registrations of the five forms. -/
def standard (item : Form → α) : List (Registration α) :=
  [⟨"body", 10, item .attr⟩, ⟨"body", 20, item .method⟩, ⟨"top", 10, item .header⟩,
    ⟨"top", 20, item .relationship⟩, ⟨"top", 30, item .constraint⟩]

end Registration

/-- The entries that a history has under a scope, in order. -/
def entriesUnder (scope : String) (history : List (Registration α)) : List (Int × α) :=
  (history.filter (·.isUnder scope)).map Registration.entry

namespace Registry

/-- A registry after further registrations. -/
def addAll (registry : Registry α) (registrations : List (Registration α)) : Registry α :=
  registrations.foldl (fun registry r ↦ registry.add r.scope r.priority r.item) registry

/-- The entries under a scope, none if the scope is not known. -/
def entriesOf (registry : Registry α) (scope : String) : List (Int × α) :=
  (registry.scopes.get? (scopeKey scope)).getD []

/-- Under each scope, the registry holds the registrations of the history, stably sorted. It knows
the scopes that have some. -/
structure Records (registry : Registry α) (history : List (Registration α)) : Prop where
  sorted : ∀ scope, StablySorted (entriesUnder scope history) (registry.entriesOf scope)
  known : ∀ scope, registry.scopes.get? (scopeKey scope) = none ↔
    history.filter (·.isUnder scope) = []

theorem records_empty : ({} : Registry α).Records [] where
  sorted := fun _ ↦ ⟨List.Pairwise.nil, fun _ ↦ rfl⟩
  known := fun _ ↦ Iff.intro (fun _ ↦ rfl) fun _ ↦ rfl

variable {registry : Registry α} {history : List (Registration α)}

/-- In a registry with a history, one more registration is the same as appending its entry to those
of its scope and sorting them stably. -/
theorem Records.add_eq (h : registry.Records history) (scope : String) (priority : Int) (item : α) :
    registry.add scope priority item =
      ⟨registry.scopes.insert (scopeKey scope)
        ((registry.entriesOf scope ++ [(priority, item)]).mergeSort byPriority)⟩ := by
  rw [← place_eq_mergeSort (h.sorted scope).ordered]
  rfl

/-- One more registration is sorted in under its scope, and the other scopes stay as they are. -/
theorem Records.add (h : registry.Records history) (registration : Registration α) :
    (registry.add registration.scope registration.priority registration.item).Records
      (history ++ [registration]) := by
  have hget : ∀ scope, registration.isUnder scope = true →
      (registry.add registration.scope registration.priority registration.item).scopes.get?
          (scopeKey scope) =
        some (place registration.priority registration.item (registry.entriesOf scope)) := by
    intro scope hscope
    rw [Registration.isUnder, beq_iff_eq] at hscope
    rw [Registry.add, hscope]
    exact Table.get?_insert_self _ _ _
  have hother : ∀ scope, registration.isUnder scope = false →
      (registry.add registration.scope registration.priority registration.item).scopes.get?
          (scopeKey scope) = registry.scopes.get? (scopeKey scope) := by
    intro scope hscope
    rw [Registration.isUnder, beq_eq_false_iff_ne] at hscope
    exact Table.get?_insert_of_ne _ _ hscope.symm
  refine ⟨?_, ?_⟩
  · intro scope
    cases hscope : registration.isUnder scope with
    | true =>
        have hentries : entriesUnder scope (history ++ [registration]) =
            entriesUnder scope history ++ [registration.entry] := by
          simp [entriesUnder, List.filter_append, hscope]
        rw [entriesOf, hget scope hscope, hentries]
        exact stablySorted_place (h.sorted scope) registration.priority registration.item
    | false =>
        have hentries : entriesUnder scope (history ++ [registration]) =
            entriesUnder scope history := by
          simp [entriesUnder, List.filter_append, hscope]
        rw [entriesOf, hother scope hscope, hentries]
        exact h.sorted scope
  · intro scope
    cases hscope : registration.isUnder scope with
    | true => simp [hget scope hscope, hscope]
    | false => simp [hother scope hscope, hscope, h.known scope]

/-- Any number of registrations are recorded behind those that were there. -/
theorem Records.addAll (h : registry.Records history) (more : List (Registration α)) :
    (registry.addAll more).Records (history ++ more) := by
  induction more generalizing registry history with
  | nil =>
      rw [List.append_nil]
      exact h
  | cons registration rest ih =>
      have hrest := ih (h.add registration)
      rwa [List.append_assoc, List.singleton_append] at hrest

/-- What is registered behind the five forms is recorded behind them. -/
theorem records_standard (item : Form → α) (added : List (Registration α)) :
    ((Registry.standard item).addAll added).Records (Registration.standard item ++ added) :=
  (records_empty.addAll (Registration.standard item)).addAll added

/-- The items of a scope are those of its registrations, sorted stably by priority. A scope without
registrations is not known. -/
theorem Records.itemsOf (h : registry.Records history) (scope : Option String) :
    registry.itemsOf scope =
      let own := history.filter (·.isUnder (scope.getD ""))
      if own.isEmpty then .error ⟨scope⟩
      else .ok ((own.mergeSort fun first second ↦ first.priority ≤ second.priority).map
        (·.item)) := by
  have hsorted := (h.sorted (scope.getD "")).unique (stablySorted_mergeSort _)
  have hknown := h.known (scope.getD "")
  unfold Registry.itemsOf
  unfold entriesOf at hsorted
  cases hget : registry.scopes.get? (scopeKey (scope.getD "")) with
  | none => simp [hknown.1 hget]
  | some entries =>
      have hown : history.filter (·.isUnder (scope.getD "")) ≠ [] := by
        rw [ne_eq, ← hknown, hget]
        simp
      rw [hget, Option.getD_some, entriesUnder,
        ← List.map_mergeSort (r := fun first second : Registration α ↦
          decide (first.priority ≤ second.priority)) (fun _ _ _ _ ↦ rfl)] at hsorted
      simp only [List.isEmpty_iff, hown, if_false, hsorted, List.map_map]
      rfl

end Registry

/-! ## Which matcher is heard -/

/-- What the matchers under a scope make of a text. If some accept it, the one with the least
priority is heard, and among those of equal priority the one that was registered first. -/
inductive Answers (history : List (Registration Matcher)) (scope text : String) :
    Option Fragment → Prop where
  | declined : (∀ registration ∈ history, registration.isUnder scope = true →
        registration.item text = none) →
      Answers history scope text none
  | accepted (position : Nat) (registration : Registration Matcher) (fragment : Fragment) :
      history[position]? = some registration → registration.isUnder scope = true →
      registration.item text = some fragment →
      (∀ position' other, history[position']? = some other → other.isUnder scope = true →
        other.item text ≠ none →
        registration.priority < other.priority ∨
          registration.priority = other.priority ∧ position ≤ position') →
      Answers history scope text (some fragment)

variable {history : List (Registration Matcher)} {scope text : String}

/-- A history has one answer to a text. -/
theorem Answers.unique {answer answer' : Option Fragment} (h : Answers history scope text answer)
    (h' : Answers history scope text answer') : answer = answer' := by
  -- where one matcher accepts, not all of them decline
  have hnot : ∀ {position : Nat} {registration : Registration Matcher} {fragment : Fragment},
      history[position]? = some registration → registration.isUnder scope = true →
      registration.item text = some fragment →
      ¬ ∀ registration ∈ history, registration.isUnder scope = true →
        registration.item text = none := by
    intro position registration fragment hposition hscope hfound hall
    have hnone := hall registration (List.mem_of_getElem? hposition) hscope
    rw [hfound] at hnone
    cases hnone
  cases h with
  | declined hall =>
      cases h' with
      | declined => rfl
      | accepted _ _ _ hposition hscope hfound => exact absurd hall (hnot hposition hscope hfound)
  | accepted position registration fragment hposition hscope hfound hleast =>
      cases h' with
      | declined hall => exact absurd hall (hnot hposition hscope hfound)
      | accepted position' registration' fragment' hposition' hscope' hfound' hleast' =>
          have hle := hleast position' registration' hposition' hscope' (by simp [hfound'])
          have hge := hleast' position registration hposition hscope (by simp [hfound])
          have hsame : position = position' := by omega
          rw [hsame, hposition', Option.some.injEq] at hposition
          rw [← hposition, hfound'] at hfound
          exact hfound.symm

namespace Registry

variable {registry : Registry Matcher}

/-- The first entry of a scope that accepts a text comes from a registration before which no other
of its priority accepts. -/
theorem Records.exists_first (h : registry.Records history) {before after : List (Int × Matcher)}
    {entry : Int × Matcher} (hsplit : registry.entriesOf scope = before ++ entry :: after)
    (hbefore : ∀ other ∈ before, other.2 text = none) (hentry : (entry.2 text).isSome = true) :
    ∃ (position : Nat) (registration : Registration Matcher),
      history[position]? = some registration ∧ registration.isUnder scope = true ∧
      registration.entry = entry ∧
      ∀ (position' : Nat) (other : Registration Matcher), history[position']? = some other →
        other.isUnder scope = true → other.priority = entry.1 → other.item text ≠ none →
        position ≤ position' := by
  have hfirst : ((registry.entriesOf scope).filter (·.1 = entry.1)).find?
      (fun other ↦ (other.2 text).isSome) = some entry := by
    refine List.find?_eq_some_iff_append.2 ⟨hentry, before.filter (·.1 = entry.1),
      after.filter (·.1 = entry.1), by simp [hsplit], ?_⟩
    intro other hother
    rw [hbefore other (List.mem_of_mem_filter hother)]
    rfl
  -- the entries of one priority stand in the order of the history
  rw [(h.sorted scope).ties, entriesUnder, List.filter_map, List.filter_filter, List.find?_map,
    List.find?_filter, Option.map_eq_some_iff] at hfirst
  obtain ⟨registration, hfound, hregistration⟩ := hfirst
  obtain ⟨hchosen, position, hlt, hposition, hearlier⟩ := List.find?_eq_some_iff_getElem.1 hfound
  simp only [Bool.and_eq_true, decide_eq_true_eq] at hchosen
  refine ⟨position, registration, by simp [hlt, hposition], hchosen.1.2, hregistration, ?_⟩
  intro position' other hother hscope hpriority haccepts
  by_contra hbelow
  have hnot := hearlier position' (by omega)
  obtain ⟨hlt', heq⟩ := List.getElem?_eq_some_iff.1 hother
  rw [heq] at hnot
  simp [Registration.entry, hscope, hpriority, Option.isSome_iff_ne_none, haccepts] at hnot

/-- The first fragment that the entries of a scope give for a text is the answer of the history. -/
theorem Records.answers (h : registry.Records history) (scope text : String) :
    Answers history scope text
      (findFragment ((registry.entriesOf scope).map (·.2)) text) := by
  have hmem : ∀ registration ∈ history, registration.isUnder scope = true →
      registration.entry ∈ registry.entriesOf scope := by
    intro registration hregistration hscope
    exact (h.sorted scope).mem_iff.2
      (List.mem_map_of_mem (List.mem_filter.2 ⟨hregistration, hscope⟩))
  rw [findFragment, List.findSome?_map]
  cases hfound : (registry.entriesOf scope).findSome? ((fun matcher ↦ matcher text) ∘ (·.2)) with
  | none =>
      rw [List.findSome?_eq_none_iff] at hfound
      exact .declined fun registration hregistration hscope ↦
        hfound _ (hmem registration hregistration hscope)
  | some fragment =>
      obtain ⟨before, entry, after, hsplit, hentry, hbefore⟩ :=
        List.findSome?_eq_some_iff.1 hfound
      obtain ⟨position, registration, hposition, hscope, rfl, hearlier⟩ :=
        h.exists_first hsplit hbefore (Option.isSome_of_eq_some hentry)
      refine .accepted position registration fragment hposition hscope hentry ?_
      intro position' other hother hscope' haccepts
      -- the other one declines, or it does not stand in front of the chosen one
      have hplace := hmem other (List.mem_of_getElem? hother) hscope'
      rw [hsplit, List.mem_append] at hplace
      have hbehind := hplace.resolve_left fun hfront ↦ haccepts (hbefore _ hfront)
      have hordered := (h.sorted scope).ordered
      rw [hsplit] at hordered
      have hle : registration.priority ≤ other.priority :=
        head_le_of_ordered (List.pairwise_append.1 hordered).2.1 hbehind
      rcases Int.lt_or_eq_of_le hle with hlt | heq
      · exact Or.inl hlt
      · exact Or.inr ⟨heq, hearlier position' other hother hscope' heq.symm haccepts⟩

/-- A matcher list of the grammar gives exactly the answer of its scope. -/
theorem Records.findFragment_iff (h : registry.Records history) {answer : Option Fragment} :
    findFragment ((registry.entriesOf scope).map (·.2)) text = answer ↔
      Answers history scope text answer := by
  constructor
  · rintro rfl
    exact h.answers scope text
  · exact (h.answers scope text).unique

end Registry

/-- The grammar of a registry holds the items of the two scopes of a reader. -/
theorem Grammar.ofRegistry_eq (registry : Registry Matcher) :
    Grammar.ofRegistry registry =
      ⟨(registry.entriesOf "body").map (·.2), (registry.entriesOf "top").map (·.2)⟩ := by
  have hitems : ∀ scope, (registry.itemsOf (some scope)).toOption.getD [] =
      (registry.entriesOf scope).map (·.2) := by
    intro scope
    rw [Registry.itemsOf, Registry.entriesOf, Option.getD_some]
    cases registry.scopes.get? (Registry.scopeKey scope) <;> rfl
  rw [Grammar.ofRegistry, hitems, hitems]

/-- Behind the five forms and any further registrations, the items of a scope are those registered
under it in whatever spelling, each once, sorted stably by priority, and a scope without any is not
known. A registration under another scope makes no difference. So for every text the grammar of a
registry finds in a scope what the matcher with the least priority finds, and among those of equal
priority the one that was registered first. While a body is open, an accepting body matcher is heard
whatever the top matchers say, and otherwise the top matchers decide. -/
theorem registrations_tried_in_order :
    (∀ (α : Type) (item : Form → α) (added : List (Registration α)) (scope : Option String),
      ((Registry.standard item).addAll added).itemsOf scope =
        let own := (Registration.standard item ++ added).filter (·.isUnder (scope.getD ""))
        if own.isEmpty then .error ⟨scope⟩
        else .ok ((own.mergeSort fun first second ↦ first.priority ≤ second.priority).map
          (·.item))) ∧
    (∀ (α : Type) (item : Form → α) (before after : List (Registration α))
      (registration : Registration α) (scope : Option String),
      registration.isUnder (scope.getD "") = false →
      ((Registry.standard item).addAll (before ++ registration :: after)).itemsOf scope =
        ((Registry.standard item).addAll (before ++ after)).itemsOf scope) ∧
    ∀ (added : List (Registration Matcher)) (text : String),
      let history := Registration.standard Form.recognise ++ added
      let grammar := Grammar.ofRegistry ((Registry.standard Form.recognise).addAll added)
      (∀ answer, findFragment grammar.body text = answer ↔ Answers history "body" text answer) ∧
      (∀ answer, findFragment grammar.top text = answer ↔ Answers history "top" text answer) ∧
      ∀ (strict : Bool) (reader : Reader) (number : Int) (raw : String),
        Line.classify raw = .content text →
        (∀ entity fragment, reader.scope = .inBody entity →
          Answers history "body" text (some fragment) →
          reader.feed grammar strict number raw = reader.addMember entity fragment) ∧
        (reader.scope = .topLevel ∨ Answers history "body" text none →
          (∀ fragment, Answers history "top" text (some fragment) →
            reader.feed grammar strict number raw = reader.addTop fragment) ∧
          (Answers history "top" text none →
            reader.feed grammar strict number raw =
              .ok (reader.passOver strict number text))) := by
  refine ⟨?_, ?_, ?_⟩
  · intro α item added scope
    exact (Registry.records_standard item added).itemsOf scope
  · intro α item before after registration scope hscope
    rw [(Registry.records_standard item _).itemsOf, (Registry.records_standard item _).itemsOf]
    simp [List.filter_append, hscope]
  · intro added text history grammar
    have hrecords := Registry.records_standard Form.recognise added
    have hgrammar : grammar = _ := Grammar.ofRegistry_eq _
    have hbody : ∀ answer, findFragment grammar.body text = answer ↔
        Answers history "body" text answer := by
      intro answer
      rw [hgrammar]
      exact hrecords.findFragment_iff
    have htop : ∀ answer, findFragment grammar.top text = answer ↔
        Answers history "top" text answer := by
      intro answer
      rw [hgrammar]
      exact hrecords.findFragment_iff
    refine ⟨hbody, htop, ?_⟩
    intro strict reader number raw hline
    refine ⟨?_, ?_⟩
    · intro entity fragment hscope hanswer
      rw [← hbody] at hanswer
      simp [Reader.feed, hline, Reader.feedContent, Reader.bodyMatch, hscope, hanswer]
    · intro hclosed
      have hnone : reader.bodyMatch grammar text = none := by
        unfold Reader.bodyMatch
        rcases hclosed with hscope | hanswer
        · rw [hscope]
        · rw [(hbody none).2 hanswer]
          cases reader.scope <;> rfl
      refine ⟨?_, ?_⟩
      · intro fragment hanswer
        rw [← htop] at hanswer
        simp [Reader.feed, hline, Reader.feedContent, hnone, hanswer]
      · intro hanswer
        rw [← htop] at hanswer
        simp [Reader.feed, hline, Reader.feedContent, hnone, hanswer]

/-- A body matcher that accepts every line is registered at the priority of the attributes, and a
top matcher that accepts every line at a lower one. An attribute is still found by the form of
attributes, which was registered first, and a method line goes to the new body matcher. -/
theorem registrations_tried_in_order_tie :
    let member : Matcher := fun _ ↦ some (.attr ⟨"p", "q"⟩)
    let link : Matcher := fun _ ↦ some (.relationship ⟨"A", "B", "--", "", "", ""⟩)
    let added : List (Registration Matcher) := [⟨" BODY\t", 10, member⟩, ⟨"Top", -7, link⟩]
    let grammar := Grammar.ofRegistry ((Registry.standard Form.recognise).addAll added)
    let entity : Entity := ⟨"A", [], []⟩
    let reader := ({} : Reader).openBody entity
    reader.feed grammar true 3 " x : int" = reader.addMember entity (.attr ⟨"x", "int"⟩) ∧
      reader.feed grammar true 4 "f() : int" = reader.addMember entity (.attr ⟨"p", "q"⟩) ∧
      ({} : Reader).feed grammar true 5 "class C" =
        ({} : Reader).addTop (.relationship ⟨"A", "B", "--", "", "", ""⟩) := by
  intro member link added grammar entity reader
  obtain ⟨-, -, hheard⟩ := registrations_tried_in_order
  obtain ⟨hbody, -, hfeed⟩ := hheard added "x : int"
  obtain ⟨hbody', -, hfeed'⟩ := hheard added "f() : int"
  obtain ⟨-, htop, hfeed''⟩ := hheard added "class C"
  refine ⟨?_, ?_, ?_⟩
  · exact (hfeed true reader 3 " x : int" (by decide)).1 entity _ rfl
      ((hbody _).1 (by decide))
  · exact (hfeed' true reader 4 "f() : int" (by decide)).1 entity _ rfl
      ((hbody' _).1 (by decide))
  · exact ((hfeed'' true {} 5 "class C" (by decide)).2 (Or.inl rfl)).1 _
      ((htop _).1 (by decide))

end ClassDiagram
