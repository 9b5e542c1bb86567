import P2im.Peripheral.Load
import P2im.Shared.Halt

set_option autoImplicit false

/-!
# What a loaded model file holds

`pm_load_model` goes through every peripheral of `"model"`, every `CR_val` of its `"events"` and
every read site under it; when it returns a model, each of them went through without an early
return. Read back from a successful load, a bit combination of `"satisfy"` has at most one
entry: its second entry, the set/clear flag of the first SR, is stored through `l1`, which is
uninitialised on odd entries.
-/

namespace P2im

variable {lib : Jansson}

def SrrSiteOf (root jval : Json) : Prop :=
  ∃ jperis jperi jevents jval0, root.member? "model" = some jperis ∧
    (∃ baseAddr, (baseAddr, jperi) ∈ jperis.members) ∧ jperi.member? "events" = some jevents ∧
    (∃ crVal, (crVal, jval0) ∈ jevents.members) ∧ ∃ key, (key, jval) ∈ jval0.members

/-- The members of a read site that the event unpack stores before `"satisfy"` have the types
of its format, so that the unpack reaches `"satisfy"`. -/
structure SiteTyped (jval : Json) : Prop where
  srNum : ∃ n, jval.intMember? "sr_num" = some n
  setBits : ∃ n, jval.intMember? "set_bits" = some n
  rIdx : jval.optIntMember? "CR_SR_r_idx" ≠ none

theorem loadBitComb_ok_length {e e' : PmEvent} {k l : Nat} {jbs : List Json}
    (ok : loadBitComb lib e k l jbs = .ok e') : jbs.length + l % 2 ≤ 1 := by
  induction jbs generalizing e l with
  | nil => simp only [List.length_nil]; omega
  | cons jb rest ih =>
    rw [loadBitComb] at ok
    obtain ⟨_, -, ok⟩ := Except.bind_eq_ok.mp ok
    obtain ⟨_, -, ok⟩ := Except.bind_eq_ok.mp ok
    obtain ⟨e1, entry, ok⟩ := Except.bind_eq_ok.mp ok
    -- an odd entry is a flag, stored through the uninitialised l1
    have even : l % 2 = 0 := by
      by_contra odd
      simp [loadEntry, odd] at entry
    have := ih ok
    simp only [List.length_cons]
    omega

theorem loadSatisfy_ok_short {e e' : PmEvent} {k : Nat} {jbcs : List Json}
    (ok : loadSatisfy lib e k jbcs = .ok e') : ∀ jbc ∈ jbcs, jbc.items.length ≤ 1 := by
  induction jbcs generalizing e k with
  | nil => simp
  | cons jbc rest ih =>
    rw [loadSatisfy] at ok
    obtain ⟨_, -, ok⟩ := Except.bind_eq_ok.mp ok
    obtain ⟨_, -, ok⟩ := Except.bind_eq_ok.mp ok
    obtain ⟨e1, comb, ok⟩ := Except.bind_eq_ok.mp ok
    intro j mem
    rcases List.mem_cons.mp mem with rfl | later
    · have := loadBitComb_ok_length comb
      omega
    · exact ih ok j later

theorem unpackEvent_satisfy (doc : lib.Documented) {jval : Json} (typed : SiteTyped jval)
    {satisfy : Json} (sat : jval.member? "satisfy" = some satisfy) (e : PmEvent)
    (jsatisfy : Option Json) : (unpackEvent lib jval e jsatisfy).2 = some satisfy := by
  obtain ⟨⟨n, srNum⟩, ⟨b, setBits⟩, rIdx⟩ := typed
  obtain ⟨r, rIdx⟩ := Option.ne_none_iff_exists'.mp rIdx
  simp [unpackEvent, doc.intMember?_eq, doc.optIntMember?_eq, srNum, setBits, rIdx, sat]

theorem loadEvent_ok_short (doc : lib.Documented) {crVal : String} {st st' : EventsLoad}
    {key : String} {jval : Json} (ok : loadEvent lib crVal st key jval = .ok st') (typed : SiteTyped jval) {satisfy : Json}
    (sat : jval.member? "satisfy" = some satisfy) :
    ∀ jbc ∈ satisfy.items, jbc.items.length ≤ 1 := by
  rw [loadEvent] at ok
  obtain ⟨_, -, ok⟩ := Except.bind_eq_ok.mp ok
  obtain ⟨_, -, ok⟩ := Except.bind_eq_ok.mp ok
  obtain ⟨jsatisfy, unpacked, ok⟩ := Except.bind_eq_ok.mp ok
  -- the unpack reached "satisfy", so jsatisfy is this site's
  rw [unpackEvent_satisfy doc typed sat] at unpacked
  cases unpacked
  obtain ⟨_, -, ok⟩ := Except.bind_eq_ok.mp ok
  obtain ⟨e, loaded, -⟩ := Except.bind_eq_ok.mp ok
  exact loadSatisfy_ok_short loaded

theorem loadEvents_ok_site {crVal : String} {st st' : EventsLoad} {members : List (String × Json)}
    (ok : loadEvents lib crVal st members = .ok st') {key : String} {jval : Json}
    (mem : (key, jval) ∈ members) : ∃ st0 st1, loadEvent lib crVal st0 key jval = .ok st1 := by
  induction members generalizing st with
  | nil => cases mem
  | cons member rest ih =>
    rw [loadEvents] at ok
    obtain ⟨st1, first, ok⟩ := Except.bind_eq_ok.mp ok
    rcases List.mem_cons.mp mem with rfl | later
    · exact ⟨st, st1, first⟩
    · exact ih ok later

theorem loadCrVals_ok_member (doc : lib.Documented) {st st' : EventsLoad}
    {members : List (String × Json)} (ok : loadCrVals lib st members = .ok st') {crVal : String}
    {jval0 : Json} (mem : (crVal, jval0) ∈ members) :
    ∃ st0 st1, loadEvents lib crVal st0 jval0.members = .ok st1 := by
  induction members generalizing st with
  | nil => cases mem
  | cons member rest ih =>
    rw [loadCrVals] at ok
    obtain ⟨_, isObject, ok⟩ := Except.bind_eq_ok.mp ok
    obtain ⟨_, -, ok⟩ := Except.bind_eq_ok.mp ok
    obtain ⟨st1, first, ok⟩ := Except.bind_eq_ok.mp ok
    rcases List.mem_cons.mp mem with rfl | later
    · rw [objectForeach_of_failWhen_ok doc isObject] at first
      exact ⟨st, st1, first⟩
    · exact ih ok later

theorem loadPeri_ok_events (doc : lib.Documented) {errno : Int} {baseAddr : String} {jperi : Json}
    {loaded : PmPeripheral × Int} (ok : loadPeri lib errno baseAddr jperi = .ok loaded)
    {jevents : Json} (events : jperi.member? "events" = some jevents) :
    ∃ st0 st1, loadCrVals lib st0 jevents.members = .ok st1 := by
  rw [loadPeri] at ok
  obtain ⟨_, -, ok⟩ := Except.bind_eq_ok.mp ok
  obtain ⟨_, -, ok⟩ := Except.bind_eq_ok.mp ok
  obtain ⟨_, -, ok⟩ := Except.bind_eq_ok.mp ok
  obtain ⟨jevents', found, ok⟩ := Except.bind_eq_ok.mp ok
  rw [events] at found
  cases found
  obtain ⟨_, -, ok⟩ := Except.bind_eq_ok.mp ok
  obtain ⟨_, -, ok⟩ := Except.bind_eq_ok.mp ok
  obtain ⟨_, isObject, ok⟩ := Except.bind_eq_ok.mp ok
  obtain ⟨st1, crVals, -⟩ := Except.bind_eq_ok.mp ok
  rw [objectForeach_of_failWhen_ok doc isObject] at crVals
  exact ⟨_, st1, crVals⟩

theorem loadPeris_ok_member {plist : List PmPeripheral} {errno : Int}
    {members : List (String × Json)} {peris : List PmPeripheral}
    (ok : loadPeris lib plist errno members = .ok peris) {baseAddr : String} {jperi : Json}
    (mem : (baseAddr, jperi) ∈ members) : ∃ errno' loaded, loadPeri lib errno' baseAddr jperi = .ok loaded := by
  induction members generalizing plist errno with
  | nil => cases mem
  | cons member rest ih =>
    rw [loadPeris] at ok
    obtain ⟨loaded, first, ok⟩ := Except.bind_eq_ok.mp ok
    rcases List.mem_cons.mp mem with rfl | later
    · exact ⟨errno, loaded, first⟩
    · exact ih ok later

theorem pmLoadModel_ok_peris (doc : lib.Documented) {pmStage : PmStage} {aflFile : Bool}
    {errno : Int} {g : LoadGlobals} {root : Json} {loaded : List PmPeripheral × LoadGlobals}
    (ok : pmLoadModel lib pmStage aflFile errno g (some root) = .ok loaded) {jperis : Json}
    (model : root.member? "model" = some jperis) :
    ∃ peris, loadPeris lib [] errno jperis.members = .ok peris := by
  rw [pmLoadModel] at ok
  obtain ⟨_, unwrapped, ok⟩ := Except.bind_eq_ok.mp ok
  cases unwrapped
  obtain ⟨jperis', found, ok⟩ := Except.bind_eq_ok.mp ok
  rw [model] at found
  cases found
  obtain ⟨_, -, ok⟩ := Except.bind_eq_ok.mp ok
  obtain ⟨_, isObject, ok⟩ := Except.bind_eq_ok.mp ok
  obtain ⟨peris, loadedPeris, -⟩ := Except.bind_eq_ok.mp ok
  rw [objectForeach_of_failWhen_ok doc isObject] at loadedPeris
  exact ⟨peris, loadedPeris⟩

theorem pmLoadModel_satisfy_short (doc : lib.Documented) {pmStage : PmStage} {aflFile : Bool}
    {errno : Int} {g : LoadGlobals} {root : Json} {loaded : List PmPeripheral × LoadGlobals}
    (ok : pmLoadModel lib pmStage aflFile errno g (some root) = .ok loaded) {jval : Json}
    (site : SrrSiteOf root jval) (typed : SiteTyped jval) {satisfy : Json}
    (sat : jval.member? "satisfy" = some satisfy) :
    ∀ jbc ∈ satisfy.items, jbc.items.length ≤ 1 := by
  obtain ⟨jperis, jperi, jevents, jval0, model, ⟨baseAddr, peri⟩, events, ⟨crVal, conf⟩, key,
    here⟩ := site
  obtain ⟨peris, loadedPeris⟩ := pmLoadModel_ok_peris doc ok model
  obtain ⟨_, _, loadedPeri⟩ := loadPeris_ok_member loadedPeris peri
  obtain ⟨_, _, loadedCrVals⟩ := loadPeri_ok_events doc loadedPeri events
  obtain ⟨_, _, loadedEvents⟩ := loadCrVals_ok_member doc loadedCrVals conf
  obtain ⟨_, _, loadedEvent⟩ := loadEvents_ok_site loadedEvents here
  exact loadEvent_ok_short doc loadedEvent typed sat

end P2im
