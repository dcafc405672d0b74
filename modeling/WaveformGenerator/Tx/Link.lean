import WaveformGenerator.Tx.Mailbox

/-!
# One request at a time

What a link sees of the mailbox: a request is accepted, served and answered before the next, and
what a dropped link left behind is gone before the next link's first request is accepted. Every run
of the two tasks is such a row of events.
-/

namespace WaveformGenerator.Tx

open Monitor (follow follow_cons follow_append follow_singleton Sees)

/-- A link, as its events show it. -/
inductive Link
  /-- Nothing is asked. -/
  | free
  | asked (request : Request)
  | answered (reply : Reply)
  /-- The link is gone, and what it left is still to be cleared. -/
  | dropped
  deriving DecidableEq, Repr

/-- What may happen to a link. A request of the old one may still be served after the drop, to
nobody. -/
def Link.next : Link → TxEvent → Option Link
  | _, .dropped => some .dropped
  | .free, .accepted request => some (.asked request)
  | .asked request, .served served reply => if served = request then some (.answered reply) else none
  | .answered reply, .took taken => if taken = reply then some .free else none
  | .dropped, .refused _ => some .dropped
  | .dropped, .served _ _ => some .dropped
  | .dropped, .cleared => some .free
  | _, _ => none

example : Link.next (.asked { kind := .info }) .dropped = some .dropped ∧
    Link.next .dropped .cleared = some .free := by decide +kernel

/-! ## What the events say of each other -/

/-- An event that a dropped link leaves. -/
def TxEvent.isStale : TxEvent → Bool
  | .refused _ | .served _ _ => true
  | _ => false

/-- The rows of events that a link may see, by their neighbours. -/
structure Orderly (events : List TxEvent) : Prop where
  /-- A reply taken is the one to the request before it. -/
  took : ∀ earlier reply later, events = earlier ++ .took reply :: later →
    ∃ before request, earlier = before ++ [.accepted request, .served request reply]
  /-- A request accepted is answered once, if its link does not drop. -/
  accepted : ∀ earlier request later, events = earlier ++ .accepted request :: later →
    later = [] ∨ (∃ after, later = .dropped :: after) ∨
      ∃ reply after, later = .served request reply :: after ∧
        (after = [] ∨ (∃ rest, after = .dropped :: rest) ∨ ∃ rest, after = .took reply :: rest)
  /-- What is served is the request just accepted, or an old link's before the drop is cleared. -/
  served : ∀ earlier request reply later, events = earlier ++ .served request reply :: later →
    (∃ before, earlier = before ++ [.accepted request]) ∨
      ∃ before stale, earlier = before ++ .dropped :: stale ∧ ∀ event ∈ stale, event.isStale = true
  /-- A request is refused only between a drop and its clearing. -/
  refused : ∀ earlier request later, events = earlier ++ .refused request :: later →
    ∃ before stale, earlier = before ++ .dropped :: stale ∧ ∀ event ∈ stale, event.isStale = true

namespace Link

/-- What the last events were, by the state they led to. -/
def Last (events : List TxEvent) : Link → Prop
  | .free => True
  | .asked request => ∃ before, events = before ++ [.accepted request]
  | .answered reply => ∃ before request,
      events = before ++ [.accepted request, .served request reply]
  | .dropped => ∃ before stale,
      events = before ++ .dropped :: stale ∧ ∀ event ∈ stale, event.isStale = true

theorem last_of_follow {events : List TxEvent} {link : Link} (h : follow next free events = some link) :
    Last events link := by
  induction events using List.reverseRecOn generalizing link with
  | nil =>
    cases h
    trivial
  | append_singleton events event ih =>
    rw [follow_append, Option.bind_eq_some_iff] at h
    obtain ⟨before, hbefore, hevent⟩ := h
    rw [follow_singleton] at hevent
    have hlast := ih hbefore
    cases event with
    | dropped =>
      cases hevent
      exact ⟨events, [], rfl, fun _ h => nomatch h⟩
    | accepted request =>
      cases before <;> cases hevent
      exact ⟨events, rfl⟩
    | refused request =>
      cases before <;> cases hevent
      obtain ⟨earlier, stale, rfl, hstale⟩ := hlast
      refine ⟨earlier, stale ++ [.refused request], by simp, fun event hevent => ?_⟩
      rcases List.mem_append.mp hevent with hold | hnew
      · exact hstale event hold
      · rw [List.mem_singleton.mp hnew]
        rfl
    | served request reply =>
      cases before with
      | free => cases hevent
      | answered _ => cases hevent
      | asked asked =>
        rw [next] at hevent
        split at hevent
        case isTrue hsame =>
          cases hevent
          subst hsame
          obtain ⟨earlier, rfl⟩ := hlast
          exact ⟨earlier, request, by simp⟩
        · cases hevent
      | dropped =>
        cases hevent
        obtain ⟨earlier, stale, rfl, hstale⟩ := hlast
        refine ⟨earlier, stale ++ [.served request reply], by simp, fun event hevent => ?_⟩
        rcases List.mem_append.mp hevent with hold | hnew
        · exact hstale event hold
        · rw [List.mem_singleton.mp hnew]
          rfl
    | took reply =>
      cases before with
      | answered _ =>
        rw [next] at hevent
        split at hevent <;> cases hevent
        trivial
      | free | asked | dropped => cases hevent
    | cleared =>
      cases before <;> cases hevent
      trivial

/-- Where a row of events may happen, each one may where it stands. -/
theorem split_follow {earlier later : List TxEvent} {event : TxEvent} {last : Link}
    (h : follow next free (earlier ++ event :: later) = some last) :
    ∃ before after, Last earlier before ∧ before.next event = some after ∧
      follow next after later = some last := by
  rw [follow_append, Option.bind_eq_some_iff] at h
  obtain ⟨before, hbefore, h⟩ := h
  rw [follow_cons, Option.bind_eq_some_iff] at h
  obtain ⟨after, hevent, hlater⟩ := h
  exact ⟨before, after, last_of_follow hbefore, hevent, hlater⟩

theorem follow_answered {reply : Reply} {events : List TxEvent} {last : Link}
    (h : follow next (answered reply) events = some last) :
    events = [] ∨ (∃ rest, events = .dropped :: rest) ∨ ∃ rest, events = .took reply :: rest := by
  cases events with
  | nil => exact .inl rfl
  | cons event rest =>
    rw [follow_cons, Option.bind_eq_some_iff] at h
    obtain ⟨after, hevent, -⟩ := h
    cases event with
    | dropped => exact .inr (.inl ⟨rest, rfl⟩)
    | took taken =>
      rw [next] at hevent
      split at hevent
      case isTrue hsame => exact .inr (.inr ⟨rest, by rw [hsame]⟩)
      · cases hevent
    | accepted | refused | served | cleared => cases hevent

theorem follow_asked {request : Request} {events : List TxEvent} {last : Link}
    (h : follow next (asked request) events = some last) :
    events = [] ∨ (∃ rest, events = .dropped :: rest) ∨
      ∃ reply rest, events = .served request reply :: rest ∧
        follow next (answered reply) rest = some last := by
  cases events with
  | nil => exact .inl rfl
  | cons event rest =>
    rw [follow_cons, Option.bind_eq_some_iff] at h
    obtain ⟨after, hevent, hrest⟩ := h
    cases event with
    | dropped => exact .inr (.inl ⟨rest, rfl⟩)
    | served served reply =>
      rw [next] at hevent
      split at hevent
      case isTrue hsame =>
        cases hevent
        exact .inr (.inr ⟨reply, rest, by rw [hsame], hrest⟩)
      · cases hevent
    | accepted | refused | took | cleared => cases hevent

/-- Only a drop drops a link. -/
theorem ne_dropped_of_follow {link last : Link} {events : List TxEvent} (h : link ≠ .dropped)
    (hdrop : .dropped ∉ events) (hfollow : follow next link events = some last) : last ≠ .dropped := by
  induction events generalizing link with
  | nil =>
    cases hfollow
    exact h
  | cons event events ih =>
    rw [follow_cons, Option.bind_eq_some_iff] at hfollow
    obtain ⟨after, hevent, hfollow⟩ := hfollow
    rw [List.mem_cons, not_or] at hdrop
    refine ih ?_ hdrop.2 hfollow
    rintro rfl
    cases link <;> cases event <;> simp_all [next]

theorem orderly_of_follow {events : List TxEvent} {last : Link}
    (h : follow next free events = some last) : Orderly events where
  took earlier reply later heq := by
    obtain ⟨before, after, hlast, hevent, -⟩ := split_follow (heq ▸ h)
    cases before with
    | answered answer =>
      rw [next] at hevent
      split at hevent
      case isTrue hsame =>
        subst hsame
        exact hlast
      · cases hevent
    | free | asked | dropped => cases hevent
  accepted earlier request later heq := by
    obtain ⟨before, after, -, hevent, hlater⟩ := split_follow (heq ▸ h)
    cases before <;> cases hevent
    rcases follow_asked hlater with hnil | hdropped | ⟨reply, rest, hserved, hrest⟩
    · exact .inl hnil
    · exact .inr (.inl hdropped)
    · exact .inr (.inr ⟨reply, rest, hserved, follow_answered hrest⟩)
  served earlier request reply later heq := by
    obtain ⟨before, after, hlast, hevent, -⟩ := split_follow (heq ▸ h)
    cases before with
    | asked asked =>
      rw [next] at hevent
      split at hevent
      case isTrue hsame =>
        subst hsame
        exact .inl hlast
      · cases hevent
    | dropped => exact .inr hlast
    | free | answered => cases hevent
  refused earlier request later heq := by
    obtain ⟨before, after, hlast, hevent, -⟩ := split_follow (heq ▸ h)
    cases before <;> cases hevent
    exact hlast

end Link

/-! ## The mailbox's state, by its link's -/

/-- Where the pass has no request in hand. -/
def Place.isIdle : Place → Bool
  | .ready | .cleared | .looking | .finishing => true
  | _ => false

namespace TxSystem

variable {ε : Type} {build : Build ε} {s : TxSystem ε} {link : Link}

/-- The USB task awaits a reply. -/
def asking (s : TxSystem ε) : Bool := s.usb.requestSubmitted || s.replyWaiting

/-- The USB task submits only a request that it has, on a link that has begun, and never awaits
two replies. -/
structure Usable (s : TxSystem ε) : Prop where
  submitted : s.usb.requestSubmitted = true → s.usb.requestPending = true ∧ s.usb.active = true
  one : s.usb.active = true → s.replyWaiting = false

/-- The request is in its slot, or in the pass's hands. -/
def Held (request : Request) (s : TxSystem ε) : Prop :=
  s.requestPending = true ∧ s.requestSlot = request ∧
      (s.place.isIdle = true ∨ s.place = .sawRequest) ∨
    s.requestPending = false ∧ s.place = .serving request

/-- The reply is in the pass's hands, or in its slot. -/
def Ready (reply : Reply) (s : TxSystem ε) : Prop :=
  (∃ served, s.place = .replying served ∧ s.owner.replyOf served = reply ∧
      s.responsePending = false) ∨
    s.responsePending = true ∧ s.responseSlot = reply ∧ s.place.isIdle = true

/-- What the flags, the slots and the pass's place say of the link. -/
def Tied (s : TxSystem ε) : Link → Prop
  | .free => s.disconnected = false ∧ s.asking = false ∧ s.requestPending = false ∧
      s.responsePending = false ∧ s.place.isIdle = true
  | .asked request => s.disconnected = false ∧ s.asking = true ∧ s.responsePending = false ∧
      s.Held request
  | .answered reply => s.disconnected = false ∧ s.asking = true ∧ s.requestPending = false ∧
      s.Ready reply
  | .dropped => s.disconnected = true ∧ s.asking = false

/-- A step that the link may see, and its state and the tasks' after it. -/
def Follows (link : Link) (outcome : TxSystem ε × List TxEvent) : Prop :=
  Sees Link.next (fun s link => s.Usable ∧ s.Tied link) link outcome

theorem Follows.silent {after : TxSystem ε} (husable : after.Usable) (htied : after.Tied link) :
    Follows link (after, []) :=
  Sees.silent ⟨husable, htied⟩

theorem Follows.one {after : TxSystem ε} {event : TxEvent} {link' : Link}
    (hnext : link.next event = some link') (husable : after.Usable) (htied : after.Tied link') :
    Follows link (after, [event]) :=
  ⟨link', (follow_singleton link event).trans hnext, husable, htied⟩

/-! ### The USB task -/

theorem asking_of_active (h : s.Usable) (hactive : s.usb.active = true) :
    s.asking = s.usb.requestSubmitted := by
  rw [asking, h.one hactive, Bool.or_false]

theorem asking_of_not_active (h : s.Usable) (hactive : ¬s.usb.active = true) :
    s.asking = s.replyWaiting := by
  have hsubmitted : s.usb.requestSubmitted = false := by
    by_contra hnot
    exact hactive (h.submitted (by simpa using hnot)).2
  rw [asking, hsubmitted, Bool.false_or]

/-- A request submitted while no reply is awaited is accepted on a free link, and refused on a
dropped one. -/
theorem submitTxRequest_spec (htied : s.Tied link) (hasking : s.asking = false)
    (request : Request) :
    link = .free ∧ s.submitTxRequest request =
        (true, { s with requestSlot := request, requestPending := true }) ∨
      link = .dropped ∧ s.submitTxRequest request = (false, s) := by
  cases link with
  | free =>
    obtain ⟨hdisconnected, -, hrequest, hresponse, -⟩ := htied
    refine .inl ⟨rfl, ?_⟩
    simp [submitTxRequest, hdisconnected, hrequest, hresponse]
  | dropped =>
    refine .inr ⟨rfl, ?_⟩
    simp [submitTxRequest, htied.1]
  | asked _ =>
    rw [htied.2.1] at hasking
    cases hasking
  | answered _ =>
    rw [htied.2.1] at hasking
    cases hasking

theorem follows_submitPending (husable : s.Usable) (htied : s.Tied link) :
    Follows link s.submitPending := by
  unfold submitPending
  split
  case isTrue hsubmit =>
    simp only [Bool.and_eq_true, Bool.not_eq_true'] at hsubmit
    obtain ⟨⟨hactive, hpending⟩, hnot⟩ := hsubmit
    have hasking : s.asking = false := (asking_of_active husable hactive).trans hnot
    rcases submitTxRequest_spec htied hasking s.usb.pending with ⟨rfl, heq⟩ | ⟨rfl, heq⟩
    · rw [heq]
      obtain ⟨hdisconnected, -, -, hresponse, hplace⟩ := htied
      exact .one rfl ⟨fun _ => ⟨hpending, hactive⟩, husable.one⟩
        ⟨hdisconnected, rfl, hresponse, .inl ⟨rfl, rfl, .inl hplace⟩⟩
    · rw [heq]
      exact .one rfl ⟨fun h => (by cases h), husable.one⟩ ⟨htied.1, husable.one hactive⟩
  · exact .silent husable htied

theorem follows_submitLine (husable : s.Usable) (htied : s.Tied link) (request : Request) :
    Follows link (s.submitLine request) := by
  unfold submitLine
  split
  · exact .silent husable htied
  case isFalse hfree =>
    rw [Bool.or_eq_true, not_or] at hfree
    obtain ⟨hactive, hwaiting⟩ := hfree
    have hasking : s.asking = false :=
      (asking_of_not_active husable hactive).trans (Bool.not_eq_true _ ▸ hwaiting)
    rcases submitTxRequest_spec htied hasking request with ⟨rfl, heq⟩ | ⟨rfl, heq⟩
    · rw [heq]
      obtain ⟨hdisconnected, -, -, hresponse, hplace⟩ := htied
      exact .one rfl ⟨husable.submitted, fun h => absurd h hactive⟩
        ⟨hdisconnected, Bool.or_true _, hresponse, .inl ⟨rfl, rfl, .inl hplace⟩⟩
    · rw [heq]
      rw [asking, Bool.or_eq_false_iff] at hasking
      refine .one rfl ⟨husable.submitted, fun _ => rfl⟩ ⟨htied.1, ?_⟩
      rw [asking, hasking.1]
      rfl

/-- A reply taken while one is awaited is the link's answer. -/
theorem takeTxReply_spec (htied : s.Tied link) (hasking : s.asking = true) :
    s.takeTxReply = (none, s) ∨
      ∃ reply, link = .answered reply ∧ s.place.isIdle = true ∧
        s.takeTxReply = (some reply, { s with responsePending := false }) := by
  unfold takeTxReply
  split
  · exact .inl rfl
  case isFalse hresponse =>
    rw [Bool.not_eq_true, Bool.not_eq_false'] at hresponse
    cases link with
    | free =>
      rw [htied.2.1] at hasking
      cases hasking
    | dropped =>
      rw [htied.2] at hasking
      cases hasking
    | asked _ =>
      rw [htied.2.2.1] at hresponse
      cases hresponse
    | answered reply =>
      rcases htied.2.2.2 with ⟨_, -, -, hnone⟩ | ⟨-, hslot, hplace⟩
      · rw [hnone] at hresponse
        cases hresponse
      · exact .inr ⟨reply, rfl, hplace, by rw [hslot]⟩

theorem follows_takeSubmitted (husable : s.Usable) (htied : s.Tied link) :
    Follows link s.takeSubmitted := by
  unfold takeSubmitted
  split
  case isTrue htake =>
    simp only [Bool.and_eq_true] at htake
    obtain ⟨⟨hactive, -⟩, hsubmitted⟩ := htake
    have hasking : s.asking = true := (asking_of_active husable hactive).trans hsubmitted
    rcases takeTxReply_spec htied hasking with heq | ⟨reply, rfl, hplace, heq⟩
    · rw [heq]
      exact .silent husable htied
    · rw [heq]
      exact .one (if_pos rfl) ⟨fun h => (by cases h), husable.one⟩
        ⟨htied.1, husable.one hactive, htied.2.2.1, rfl, hplace⟩
  · exact .silent husable htied

theorem follows_takeLine (husable : s.Usable) (htied : s.Tied link) :
    Follows link s.takeLine := by
  unfold takeLine
  split
  case isTrue htake =>
    rw [Bool.and_eq_true, Bool.not_eq_true'] at htake
    obtain ⟨hactive, hwaiting⟩ := htake
    have hasking : s.asking = true :=
      (asking_of_not_active husable (by rw [hactive]; exact Bool.false_ne_true)).trans hwaiting
    rcases takeTxReply_spec htied hasking with heq | ⟨reply, rfl, hplace, heq⟩
    · rw [heq]
      exact .silent husable htied
    · rw [heq]
      refine .one (if_pos rfl) ⟨husable.submitted, fun _ => rfl⟩
        ⟨htied.1, ?_, htied.2.2.1, rfl, hplace⟩
      rw [asking, Bool.or_false]
      by_contra hsubmitted
      rw [(husable.submitted (by simpa using hsubmitted)).2] at hactive
      cases hactive
  · exact .silent husable htied

theorem follows_linkState (husable : s.Usable) (htied : s.Tied link) (established : Bool) :
    Follows link (s.linkState established) := by
  unfold linkState
  split
  case isTrue hfed =>
    rw [Bool.and_eq_true, Bool.not_eq_true'] at hfed
    obtain ⟨hactive, hpending⟩ := hfed
    have hsubmitted : s.usb.requestSubmitted = false := by
      by_contra hnot
      rw [(husable.submitted (by simpa using hnot)).1] at hpending
      cases hpending
    dsimp only
    split
    · refine .one rfl ⟨husable.submitted, husable.one⟩ ⟨rfl, ?_⟩
      rw [asking, disconnectTxArtifact, hsubmitted, Bool.false_or]
      exact husable.one hactive
    · refine .silent ⟨husable.submitted, husable.one⟩ ?_
      cases link <;> exact htied
  · exact .silent husable htied

theorem follows_portClosed (husable : s.Usable) (htied : s.Tied link) :
    Follows link s.portClosed := by
  unfold portClosed
  split
  · exact .one rfl ⟨fun h => (by cases h), fun h => (by cases h)⟩ ⟨rfl, rfl⟩
  case isFalse hclosed =>
    rw [Bool.or_eq_true, not_or, Bool.not_eq_true, Bool.not_eq_true] at hclosed
    have hsame : ({ s with replyWaiting := false } : TxSystem ε) = s := by rw [← hclosed.2]
    rw [hsame]
    exact .silent husable htied

/-! ### The player task -/

/-- From one place with no request in hand to another. -/
theorem Tied.moved (h : s.Tied link) (hidle : s.place.isIdle = true) (owner : Owner ε)
    {place : Place} (hplace : place.isIdle = true) : Tied { s with owner, place } link := by
  cases link with
  | free => exact ⟨h.1, h.2.1, h.2.2.1, h.2.2.2.1, hplace⟩
  | dropped => exact h
  | asked request =>
    refine ⟨h.1, h.2.1, h.2.2.1, ?_⟩
    rcases h.2.2.2 with ⟨hpending, hslot, -⟩ | ⟨-, hserving⟩
    · exact .inl ⟨hpending, hslot, .inl hplace⟩
    · rw [hserving] at hidle
      cases hidle
  | answered reply =>
    refine ⟨h.1, h.2.1, h.2.2.1, ?_⟩
    rcases h.2.2.2 with ⟨_, hreplying, -⟩ | ⟨hpending, hslot, -⟩
    · rw [hreplying] at hidle
      cases hidle
    · exact .inr ⟨hpending, hslot, hplace⟩

/-- Only a dropped link is seen as disconnected. -/
theorem Tied.eq_dropped (h : s.Tied link) (hdisconnected : s.disconnected = true) :
    link = .dropped := by
  cases link with
  | dropped => rfl
  | free | asked | answered =>
    rw [h.1] at hdisconnected
    cases hdisconnected

/-- A pass on its way through has a request of the link in hand, or a dropped link's. -/
theorem Tied.busy (h : s.Tied link) (hbusy : s.place.isIdle = false) :
    link = .dropped ∨ (∃ request, link = .asked request ∧
        (s.place = .sawRequest ∧ s.requestPending = true ∧ s.requestSlot = request ∨
          s.place = .serving request ∧ s.requestPending = false)) ∨
      ∃ reply served, link = .answered reply ∧ s.place = .replying served ∧
        s.owner.replyOf served = reply := by
  cases link with
  | dropped => exact .inl rfl
  | free =>
    rw [h.2.2.2.2] at hbusy
    cases hbusy
  | asked request =>
    refine .inr (.inl ⟨request, rfl, ?_⟩)
    rcases h.2.2.2 with ⟨hpending, hslot, hidle | hsaw⟩ | ⟨hnone, hserving⟩
    · rw [hidle] at hbusy
      cases hbusy
    · exact .inl ⟨hsaw, hpending, hslot⟩
    · exact .inr ⟨hserving, hnone⟩
  | answered reply =>
    rcases h.2.2.2 with ⟨served, hreplying, hreply, -⟩ | ⟨-, -, hidle⟩
    · exact .inr (.inr ⟨reply, served, rfl, hreplying, hreply⟩)
    · rw [hidle] at hbusy
      cases hbusy

theorem Tied.connected (h : s.Tied link) (hne : link ≠ .dropped) : s.disconnected = false := by
  cases link with
  | dropped => exact absurd rfl hne
  | free | asked | answered => exact h.1

theorem follows_servicePass (husable : s.Usable) (htied : s.Tied link) (around : Surroundings) :
    Follows link (s.servicePass build around) := by
  have husable' : ∀ after : TxSystem ε, after.usb = s.usb → after.replyWaiting = s.replyWaiting →
      after.Usable := by
    intro after husb hwaiting
    exact ⟨husb ▸ husable.submitted, husb ▸ hwaiting ▸ husable.one⟩
  unfold servicePass
  split
  case h_1 hready =>
    refine .silent (husable' _ rfl rfl) ?_
    by_cases hdisconnected : s.disconnected = true
    · obtain rfl := htied.eq_dropped hdisconnected
      exact htied
    · rw [if_neg hdisconnected]
      exact htied.moved (by rw [hready]; rfl) s.owner rfl
  case h_2 hsaw =>
    rcases htied.busy (by rw [hsaw]; rfl) with
      rfl | ⟨_, -, ⟨hother, -⟩ | ⟨hother, -⟩⟩ | ⟨_, _, -, hother, -⟩
    · exact .one rfl (husable' _ rfl rfl) ⟨rfl, htied.2, rfl, rfl, rfl⟩
    all_goals
      rw [hsaw] at hother
      cases hother
  case h_3 hcleared =>
    exact .silent (husable' _ rfl rfl) (htied.moved (by rw [hcleared]; rfl) _ rfl)
  case h_4 hlooking =>
    refine .silent (husable' _ rfl rfl) ?_
    by_cases hpending : s.requestPending = true
    · rw [if_pos hpending]
      cases link with
      | dropped => exact htied
      | free =>
        rw [htied.2.2.1] at hpending
        cases hpending
      | answered _ =>
        rw [htied.2.2.1] at hpending
        cases hpending
      | asked request =>
        refine ⟨htied.1, htied.2.1, htied.2.2.1, ?_⟩
        rcases htied.2.2.2 with ⟨-, hslot, -⟩ | ⟨hnone, -⟩
        · exact .inl ⟨hpending, hslot, .inr rfl⟩
        · rw [hnone] at hpending
          cases hpending
    · rw [if_neg hpending]
      exact htied.moved (by rw [hlooking]; rfl) s.owner rfl
  case h_5 hsaw =>
    rcases htied.busy (by rw [hsaw]; rfl) with
      rfl | ⟨request, rfl, ⟨-, hpending, hslot⟩ | ⟨hother, -⟩⟩ | ⟨_, _, -, hother, -⟩
    · exact .silent (husable' _ rfl rfl) htied
    · exact .silent (husable' _ rfl rfl)
        ⟨htied.1, htied.2.1, htied.2.2.1, .inr ⟨rfl, by rw [hslot]⟩⟩
    all_goals
      rw [hsaw] at hother
      cases hother
  case h_6 request hserving =>
    rcases htied.busy (by rw [hserving]; rfl) with
      rfl | ⟨asked, rfl, ⟨hother, -⟩ | ⟨hsame, hnone⟩⟩ | ⟨_, _, -, hother, -⟩
    · exact .one rfl (husable' _ rfl rfl) htied
    · rw [hserving] at hother
      cases hother
    · rw [hserving] at hsame
      cases hsame
      exact .one (if_pos rfl) (husable' _ rfl rfl)
        ⟨htied.1, htied.2.1, hnone, .inl ⟨_, rfl, rfl, htied.2.2.1⟩⟩
    · rw [hserving] at hother
      cases hother
  case h_7 served hreplying =>
    rcases htied.busy (by rw [hreplying]; rfl) with
      rfl | ⟨_, -, ⟨hother, -⟩ | ⟨hother, -⟩⟩ | ⟨reply, put, rfl, hsame, hreply⟩
    · exact .silent (husable' _ rfl rfl) htied
    · rw [hreplying] at hother
      cases hother
    · rw [hreplying] at hother
      cases hother
    · rw [hreplying] at hsame
      cases hsame
      exact .silent (husable' _ rfl rfl)
        ⟨htied.1, htied.2.1, htied.2.2.1, .inr ⟨rfl, hreply, rfl⟩⟩
  case h_8 hfinishing =>
    exact .silent (husable' _ rfl rfl) (htied.moved (by rw [hfinishing]; rfl) _ rfl)

/-- Each step of either task is one that the link may see. -/
theorem follows_step (husable : s.Usable) (htied : s.Tied link) (action : TxAction) :
    Follows link (s.step build action) := by
  cases action with
  | submit => exact follows_submitPending husable htied
  | take => exact follows_takeSubmitted husable htied
  | linkState established => exact follows_linkState husable htied established
  | submitLine request => exact follows_submitLine husable htied request
  | takeLine => exact follows_takeLine husable htied
  | disconnect => exact follows_portClosed husable htied
  | player around => exact follows_servicePass husable htied around
  | activate =>
    show Follows link (if s.replyWaiting then s else _, [])
    split
    · exact .silent husable htied
    case isFalse hwaiting =>
      refine .silent ⟨fun h => ⟨(husable.submitted h).1, rfl⟩,
        fun _ => Bool.not_eq_true _ ▸ hwaiting⟩ ?_
      cases link <;> exact htied
  | receive request =>
    show Follows link (if s.usb.active && !s.usb.requestPending then _ else s, [])
    split
    · refine .silent ⟨fun h => ⟨rfl, (husable.submitted h).2⟩, husable.one⟩ ?_
      cases link <;> exact htied
    · exact .silent husable htied
  | abort =>
    show Follows link (if s.place = .ready then _ else s, [])
    split
    case isTrue hready =>
      have hsame : ({ s with owner := s.owner.abort build } : TxSystem ε) =
          { s with owner := s.owner.abort build, place := .ready } := by rw [← hready]
      rw [hsame]
      exact .silent ⟨husable.submitted, husable.one⟩ (htied.moved (by rw [hready]; rfl) _ rfl)
    · exact .silent husable htied

theorem follows_run (husable : s.Usable) (htied : s.Tied link) (actions : List TxAction) :
    Follows link (s.run build actions) :=
  Monitor.sees_run (fun _ _ action h _ => follows_step h.1 h.2 action) ⟨husable, htied⟩
    (Monitor.allowed_of_forall (fun _ _ => trivial) s actions)

end TxSystem

end WaveformGenerator.Tx
