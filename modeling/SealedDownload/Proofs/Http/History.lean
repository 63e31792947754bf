import SealedDownload.Proofs.Http.Custody
import SealedDownload.Proofs.Http.Resumption

/-! What can be seen of a chain of calls from outside, on the wire and on the disk. A history has all moments of the
    chain, the newest first; from it one reads off what the last call has asked for, which response was accepted last
    for a file, with which one the file was begun, and what has come of the body that is taken. The calls need not be
    for one request, and whatever comes may come at any time. -/

namespace SealedDownload.Http

/-- What can happen to the calls of a transport. -/
inductive Happening where
  /-- a call begins; it is given the token that the failure of the last one has left -/
  | call (request : TransportRequest)
  | input (input : FetchInput)
  /-- the disk fails the call that goes on -/
  | spoil (kind : IoKind)

namespace Happening

/-- Whether a call begins. -/
def isCall : Happening → Bool
  | .call _ => true
  | _ => false

/-- The headers of a request leave it to the transport what part of the object is asked for. -/
def LeavesRange : Happening → Prop
  | .call request => AskNoRange request.headers
  | _ => True

end Happening

/-- The chain after what has happened, where it can happen, and what is done besides changing files. -/
def Chain.happen? (c : Chain) : Happening → Option (Chain × List FetchEffect)
  | .call request => { c with request }.step? .call
  | .input input => c.step? (.input input)
  | .spoil kind => match c.link with
    | .busy f =>
      let (f, files) := f.fail c.files (.io kind none)
      some (c.going f files, [])
    | .idle _ => none

/-- One moment of a chain. -/
structure Moment where
  before : Chain
  happening : Happening
  effects : List FetchEffect
  after : Chain

/-- The moments of a chain, newest first, and the chain after them. -/
inductive History (t : HttpTransport) (files : Files) : List Moment → Chain → Prop where
  | start {request : TransportRequest} : History t files [] (Chain.start t request files)
  | next {past : List Moment} {c d : Chain} {happening : Happening} {effects : List FetchEffect}
      (h : History t files past c) (hr : happening.LeavesRange) (hs : c.happen? happening = some (d, effects)) :
      History t files (⟨c, happening, effects, d⟩ :: past) d

theorem History.call {t : HttpTransport} {files : Files} {past : List Moment} {c d : Chain}
    {effects : List FetchEffect} (request : TransportRequest) (h : History t files past c)
    (hr : AskNoRange request.headers) (hs : c.happen? (.call request) = some (d, effects)) :
    History t files (⟨c, .call request, effects, d⟩ :: past) d := h.next hr hs

theorem History.input {t : HttpTransport} {files : Files} {past : List Moment} {c d : Chain}
    {effects : List FetchEffect} (input : FetchInput) (h : History t files past c)
    (hs : c.happen? (.input input) = some (d, effects)) :
    History t files (⟨c, .input input, effects, d⟩ :: past) d := h.next trivial hs

/-! ### Requests -/

namespace Sent

/-- The values of all headers of a name. -/
def values (sent : Sent) (name : String) : List String := (sent.headers.filter (isNamed name)).map (·.2)

/-- A request for all of an object. -/
def AsksAll (sent : Sent) : Prop := sent.values "range" = [] ∧ sent.values "if-range" = []

/-- A request for an object from a byte on, if it is still the one that a validator is of. -/
def AsksFrom (sent : Sent) (k : UInt64) (validator : String) : Prop :=
  sent.values "range" = [rangeFrom k] ∧ sent.values "if-range" = [validator]

/-- Whether a response gives a request what it can use: all of an object, or the part that was asked for. -/
def Accepts (sent : Sent) (head : Head) : Prop :=
  head.isSuccess = true ∧
    (head.status = Head.partialContent → ∀ k validator, sent.AsksFrom k validator → head.start? = some k)

theorem AsksFrom.eq {sent : Sent} {k l : UInt64} {validator other : String} (h : sent.AsksFrom k validator)
    (h' : sent.AsksFrom l other) : k = l :=
  rangeFrom_inj (List.singleton_inj.mp (h.1.symm.trans h'.1))

theorem AsksAll.not_asksFrom {sent : Sent} (h : sent.AsksAll) (k : UInt64) (validator : String) :
    ¬sent.AsksFrom k validator := by
  intro h'
  cases h.1.symm.trans h'.1

end Sent

namespace Fetch

variable {f : Fetch} {validator : String}

theorem values_of_askNoRange (h : AskNoRange f.headers) {name : String} (hn : name = "range" ∨ name = "if-range") :
    f.request.values name = ((rangeHeaders f.part).filter (isNamed name)).map (·.2) := by
  have he : f.headers.filter (isNamed name) = [] := by
    refine List.filter_eq_nil_iff.mpr fun header hm => Bool.not_eq_true _ ▸ ?_
    rcases hn with rfl | rfl
    · exact (h header hm).1
    · exact (h header hm).2
  unfold Sent.values request
  rw [List.filter_append, he, List.nil_append]

theorem asksAll_of_received (h : AskNoRange f.headers) (hr : f.part.received = 0) : f.request.AsksAll := by
  have hn : rangeHeaders f.part = [] := by
    unfold rangeHeaders
    cases f.part.validator with
    | none => rfl
    | some validator => exact if_neg (by rw [hr]; decide)
  constructor
  · rw [values_of_askNoRange h (Or.inl rfl), hn, List.filter_nil, List.map_nil]
  · rw [values_of_askNoRange h (Or.inr rfl), hn, List.filter_nil, List.map_nil]

theorem asksFrom_of_received (h : AskNoRange f.headers) (hr : 0 < f.part.received)
    (hv : f.part.validator = some validator) : f.request.AsksFrom f.part.received validator := by
  have hn : rangeHeaders f.part = [("range", rangeFrom f.part.received), ("if-range", validator)] := by
    unfold rangeHeaders
    rw [hv]
    exact if_pos hr
  constructor
  · rw [values_of_askNoRange h (Or.inl rfl), hn]
    simp [isNamed]
  · rw [values_of_askNoRange h (Or.inr rfl), hn]
    simp [isNamed]

/-- Whether a response is awaited. -/
def isSending (f : Fetch) : Bool :=
  match f.phase with
  | .sending _ => true
  | _ => false

/-- Whether a body comes in. -/
def isReading (f : Fetch) : Bool :=
  match f.phase with
  | .reading _ => true
  | _ => false

end Fetch

/-! ### What a history shows -/

/-- The request that an effect is. -/
def FetchEffect.sent? : FetchEffect → Option Sent
  | .send sent => some sent
  | .report .. => none

/-- The requests that are sent at a moment. -/
def Moment.requests (m : Moment) : List Sent := m.effects.filterMap FetchEffect.sent?

/-- The requests of the call that goes on, or of the last one, the newest first. -/
def asked : List Moment → List Sent
  | [] => []
  | m :: past => m.requests.reverse ++ if m.happening.isCall then [] else asked past

/-- The response that is accepted at a moment, and for which file: its body is read from then on. -/
def Moment.accepted? (m : Moment) : Option (Path × Head) :=
  match m.happening, m.before.link, m.after.link with
  | .input (.head head), .busy f, .busy g => if f.isSending && g.isReading then some (g.part.path, head) else none
  | _, _, _ => none

/-- The response that a file is begun with: the file is empty once the response has been accepted. -/
def Moment.begun? (m : Moment) : Option (Path × Head) :=
  m.accepted?.filter fun accepted => m.after.files.get? accepted.1 = some []

/-- The response that was accepted last for a file. -/
def lastAccepted? (past : List Moment) (path : Path) : Option Head := (past.filterMap Moment.accepted?).lookup path

/-- The response that a file was begun with last. -/
def begunWith? (past : List Moment) (path : Path) : Option Head := (past.filterMap Moment.begun?).lookup path

/-- A body that a call takes. -/
structure Taken where
  head : Head
  /-- what there was of the file already, and stays -/
  kept : Octets
  /-- what has come of the body -/
  body : Octets

/-- The body that the call that goes on takes, or that the last one took. -/
def taken? : List Moment → Option Taken
  | [] => none
  | m :: past =>
    match m.accepted?, m.happening with
    | some (path, head), _ => some ⟨head, (m.after.files.get? path).getD [], []⟩
    | none, .call _ => none
    | none, .input (.chunk bytes) => (taken? past).map fun taken => { taken with body := taken.body ++ bytes }
    | none, _ => taken? past

section Reading

variable {m : Moment} {past : List Moment} {path other : Path} {head : Head} {c : Chain} {f g : Fetch} {files : Files}
  {effects : List FetchEffect}

theorem asked_cons_of_isCall (h : m.happening.isCall = true) : asked (m :: past) = m.requests.reverse := by
  rw [asked, if_pos h, List.append_nil]

theorem asked_cons (h : m.happening.isCall = false) : asked (m :: past) = m.requests.reverse ++ asked past := by
  rw [asked, if_neg (Bool.eq_false_iff.mp h)]

/-- Nothing is accepted but the response to a request. -/
theorem exists_of_accepted? (h : m.accepted? = some (path, head)) : ∃ f g,
    m.happening = .input (.head head) ∧ m.before.link = .busy f ∧ m.after.link = .busy g ∧ f.isSending = true ∧
      g.isReading = true ∧ g.part.path = path := by
  unfold Moment.accepted? at h
  split at h
  · rename_i f g hh hb ha
    split at h
    · rename_i hp
      obtain ⟨hf, hg⟩ := Bool.and_eq_true_iff.mp hp
      cases h
      exact ⟨f, g, hh, hb, ha, hf, hg, rfl⟩
    · cases h
  · cases h

theorem accepted?_of_going (hl : c.link = .busy f) :
    (Moment.mk c (.input (.head head)) effects (c.going g files)).accepted? =
      if f.isSending && g.isReading then some (g.part.path, head) else none := by
  cases hp : g.phase with
  | sending | reading => simp [Moment.accepted?, hl, Chain.going, Fetch.result?, hp]
  | ended => simp [Moment.accepted?, hl, Chain.going, Fetch.result?, Fetch.isReading, hp]

theorem lastAccepted?_cons (h : m.accepted? = none) : lastAccepted? (m :: past) path = lastAccepted? past path := by
  unfold lastAccepted?
  rw [List.filterMap_cons_none h]

theorem lastAccepted?_cons_self (h : m.accepted? = some (path, head)) :
    lastAccepted? (m :: past) path = some head := by
  unfold lastAccepted?
  rw [List.filterMap_cons_some h, List.lookup_cons_self]

theorem begun?_of_accepted? (h : m.accepted? = none) : m.begun? = none := by
  rw [Moment.begun?, h, Option.filter_none]

theorem begunWith?_cons (h : m.begun? = none) : begunWith? (m :: past) path = begunWith? past path := by
  unfold begunWith?
  rw [List.filterMap_cons_none h]

theorem begunWith?_cons_self (h : m.begun? = some (path, head)) : begunWith? (m :: past) path = some head := by
  unfold begunWith?
  rw [List.filterMap_cons_some h, List.lookup_cons_self]

theorem taken?_of_accepted? {got : Octets} (h : m.accepted? = some (path, head))
    (hg : m.after.files.get? path = some got) : taken? (m :: past) = some ⟨head, got, []⟩ := by
  simp only [taken?, h, hg, Option.getD_some]

theorem taken?_cons {input : FetchInput} (h : m.accepted? = none) (hh : m.happening = .input input)
    (hi : ∀ bytes, input ≠ .chunk bytes) : taken? (m :: past) = taken? past := by
  cases input with
  | chunk bytes => exact absurd rfl (hi bytes)
  | head | finish | broken | silent | failed | cancel => simp only [taken?, h, hh]

theorem taken?_cons_chunk {bytes : Octets} (h : m.accepted? = none) (hh : m.happening = .input (.chunk bytes)) :
    taken? (m :: past) = (taken? past).map fun taken => { taken with body := taken.body ++ bytes } := by
  simp only [taken?, h, hh]

end Reading
end SealedDownload.Http
