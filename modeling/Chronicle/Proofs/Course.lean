import Chronicle.Proofs.Attendance

/-!
# Courses of a service

A course is what happens to a service, move by move.  The land takes what is
submitted in the order of submission, and as long as it is open its part of the
course is a run.
-/

namespace Chronicle

/-- A move of a service, with the service before it. -/
structure Occurrence (σ : Type) where
  before : Service σ
  move : Move

namespace Occurrence

variable {σ : Type}

/-- The submissions that are made in a move. -/
def requests (occurrence : Occurrence σ) : List Request :=
  let isOpen := occurrence.before.task.isOpen
  match occurrence.move with
  | .packet clock packet address =>
      (occurrence.before.transport.handle isOpen clock packet address).1
  | .expire =>
      match occurrence.before.expired with
      | [] => []
      | session :: _ => Transport.leave isOpen session.identity
  | _ => []

/-- The submission that the land takes in a move. -/
def taken? (occurrence : Occurrence σ) : Option Request :=
  match occurrence.move with
  | .take => occurrence.before.requests.head?
  | _ => none

/-- The acknowledgment that is passed on in a move. -/
def receipt? (occurrence : Occurrence σ) : Option Receipt :=
  match occurrence.move with
  | .acknowledge index => occurrence.before.receipts[index]?
  | _ => none

/-- The acknowledgments that the land makes in a move. -/
def acknowledgments (rules : Rules σ) (occurrence : Occurrence σ) :
    List (Acknowledgment Submitter) :=
  let task := occurrence.before.task
  match occurrence.move with
  | .take =>
      match occurrence.before.requests with
      | [] => []
      | request :: _ => (task.submit rules request.submitter request.inbound).1
  | .resolve sequence chance =>
      match task.isOpen, task.running.find? fun r => r.submission.sequence = sequence with
      | true, some resolution => (task.complete (resolution.run task.land.id chance)).1
      | _, _ => []
  | _ => []

/-- What passes on the land in a move, as long as it is open. -/
def passage? (occurrence : Occurrence σ) : Option (Passage σ) :=
  if occurrence.before.task.isOpen then occurrence.before.passage? occurrence.move else none

end Occurrence

namespace Service

variable {σ : Type} {rules : Rules σ}

/-- The courses that begin with a service: what happens, and the service after
it. -/
inductive Course (rules : Rules σ) (start : Service σ) :
    List (Occurrence σ) → Service σ → Prop where
  | nothing : Course rules start [] start
  | next {past : List (Occurrence σ)} {service : Service σ} {move : Move}
      (course : Course rules start past service) (takes : service.Takes move) :
      Course rules start (past ++ [⟨service, move⟩]) (service.after rules move)

/-- The submissions that are made in a course. -/
def submitted (past : List (Occurrence σ)) : List Request := past.flatMap (·.requests)

/-- The submissions that the land takes in a course. -/
def taken (past : List (Occurrence σ)) : List Request := past.filterMap (·.taken?)

/-- The acknowledgments that are passed on in a course. -/
def passedOn (past : List (Occurrence σ)) : List Receipt := past.filterMap (·.receipt?)

/-- What passes on the land in a course. -/
def passages (past : List (Occurrence σ)) : List (Passage σ) := past.filterMap (·.passage?)

section Snoc

variable (past : List (Occurrence σ)) (last : Occurrence σ)

theorem submitted_append (later : List (Occurrence σ)) :
    submitted (past ++ later) = submitted past ++ submitted later := List.flatMap_append

@[simp] theorem submitted_snoc :
    submitted (past ++ [last]) = submitted past ++ last.requests := by
  rw [submitted_append]
  exact congrArg (submitted past ++ ·) (List.flatMap_singleton _ last)

@[simp] theorem taken_snoc : taken (past ++ [last]) = taken past ++ last.taken?.toList := by
  rw [taken, List.filterMap_append, List.filterMap_cons, List.filterMap_nil]
  cases last.taken? <;> rfl

@[simp] theorem passedOn_snoc :
    passedOn (past ++ [last]) = passedOn past ++ last.receipt?.toList := by
  rw [passedOn, List.filterMap_append, List.filterMap_cons, List.filterMap_nil]
  cases last.receipt? <;> rfl

@[simp] theorem passages_snoc :
    passages (past ++ [last]) = passages past ++ last.passage?.toList := by
  rw [passages, List.filterMap_append, List.filterMap_cons, List.filterMap_nil]
  cases last.passage? <;> rfl

end Snoc

/-! ## Moves -/

section Moves

variable {service : Service σ} {move : Move}

/-- The transport after a tick: the events that were heard wait to be sent. -/
def heard (rules : Rules σ) (service : Service σ) : Transport :=
  match (service.task.step rules).1.land.mode with
  | .live _ _ _ =>
      (service.task.step rules).1.heard.foldl
        (fun transport event => transport.publish service.task.land.nextTick event)
        service.transport
  | .replay _ _ _ => service.transport

/-- The moves for which a service has nothing to do. -/
inductive Idle (service : Service σ) : Move → Prop where
  | noneExpired (expired : service.expired = []) : Idle service .expire
  | noRequest (requests : service.requests = []) : Idle service .take
  | notRunning {sequence : Sequence} {chance : Chance}
      (notRunning : ∀ resolution, service.task.isOpen = true →
        service.task.running.find? (fun running => running.submission.sequence = sequence) ≠
          some resolution) :
      Idle service (.resolve sequence chance)
  | ended (closed : service.task.isOpen = false) : Idle service .tick
  | noReceipt {index : Nat} (none : service.receipts[index]? = none) :
      Idle service (.acknowledge index)

namespace Idle

theorem requests (idle : service.Idle move) : (⟨service, move⟩ : Occurrence σ).requests = [] := by
  cases idle with
  | noneExpired expired => rw [Occurrence.requests, expired]
  | _ => rfl

theorem taken? (idle : service.Idle move) : (⟨service, move⟩ : Occurrence σ).taken? = none := by
  cases idle with
  | noRequest requests => rw [Occurrence.taken?, requests, List.head?_nil]
  | _ => rfl

theorem acknowledgments (idle : service.Idle move) (rules : Rules σ) :
    (⟨service, move⟩ : Occurrence σ).acknowledgments rules = [] := by
  cases idle with
  | noRequest requests => rw [Occurrence.acknowledgments, requests]
  | notRunning _ =>
      simp only [Occurrence.acknowledgments]
  | _ => rfl

theorem receipt? (idle : service.Idle move) :
    (⟨service, move⟩ : Occurrence σ).receipt? = none := by
  cases idle with
  | noReceipt none => exact none
  | _ => rfl

end Idle

/-- What a service does in a move, and the service after it. -/
inductive Does (rules : Rules σ) (service : Service σ) : Move → Service σ → Prop where
  | idles {move : Move} (idle : service.Idle move) : Does rules service move service
  | receives (clock : Clock) (packet : Packet) (address : Address) :
      Does rules service (.packet clock packet address)
        (service.handlePacket clock packet address)
  | drops (clock : Clock) :
      Does rules service (.dropSilent clock) (service.dropSilent clock)
  /-- The leave of the session that has expired first is submitted. -/
  | expires {session : Session} {rest : List Session}
      (expired : service.expired = session :: rest) :
      Does rules service .expire
        { service with
          requests := service.requests ++ Transport.leave service.task.isOpen session.identity
          expired := rest }
  /-- The land takes the submission that was made first. -/
  | takes {request : Request} {rest : List Request}
      (requests : service.requests = request :: rest) :
      Does rules service .take
        (update { service with requests := rest }
          (service.task.submit rules request.submitter request.inbound).1
          (service.task.submit rules request.submitter request.inbound).2)
  /-- A resolution finishes that is running on an open land. -/
  | resolves {sequence : Sequence} {chance : Chance} {resolution : Resolution}
      (isOpen : service.task.isOpen = true)
      (found : service.task.running.find? (fun running =>
        running.submission.sequence = sequence) = some resolution) :
      Does rules service (.resolve sequence chance)
        (service.update (service.task.complete (resolution.run service.task.land.id chance)).1
          (service.task.complete (resolution.run service.task.land.id chance)).2)
  | ticks (isOpen : service.task.isOpen = true) :
      Does rules service .tick
        (update { service with transport := service.heard rules } [] (service.task.step rules).2)
  /-- An acknowledgment is passed on and no longer on its way. -/
  | passesOn {index : Nat} {receipt : Receipt}
      (found : service.receipts[index]? = some receipt) :
      Does rules service (.acknowledge index)
        { service with
          transport := service.transport.acknowledge receipt.submitter receipt.result
          receipts := service.receipts.eraseIdx index }
  | sends : Does rules service .send service.send
  | closes : Does rules service .close (service.update [] service.task.shutdown)

/-- A service does nothing else. -/
theorem does (rules : Rules σ) (service : Service σ) (move : Move) :
    Does rules service move (service.after rules move) := by
  cases move with
  | packet clock packet address => exact .receives clock packet address
  | dropSilent clock => exact .drops clock
  | expire =>
      rw [after, expire]
      cases expired : service.expired with
      | nil => exact .idles (.noneExpired expired)
      | cons session rest => exact .expires expired
  | take =>
      rw [after, take]
      cases requests : service.requests with
      | nil => exact .idles (.noRequest requests)
      | cons request rest => exact .takes requests
  | resolve sequence chance =>
      rw [after, resolve]
      split
      · rename_i resolution isOpen found
        exact .resolves isOpen found
      · rename_i notRunning
        exact .idles (.notRunning notRunning)
  | tick =>
      rw [after, tick]
      split
      · rename_i isOpen
        exact .ticks isOpen
      · rename_i ended
        exact .idles (.ended (Bool.eq_false_iff.2 ended))
  | acknowledge index =>
      rw [after, acknowledge]
      cases found : service.receipts[index]? with
      | none => exact .idles (.noReceipt found)
      | some receipt => exact .passesOn found
  | send => exact .sends
  | close => exact .closes

/-- A tick connects and disconnects nobody. -/
@[simp] theorem heard_clients (rules : Rules σ) (service : Service σ) :
    (service.heard rules).clients = service.transport.clients := by
  have publishes (number : Tick) (events : List Event) (transport : Transport) :
      (events.foldl (fun transport event => transport.publish number event) transport).clients =
        transport.clients := by
    induction events generalizing transport with
    | nil => rfl
    | cons event rest inductionHypothesis => exact inductionHypothesis _
  unfold heard
  split
  · exact publishes _ _ _
  · rfl

end Moves

/-! ## Submissions in order -/

/-- While the land is open, what was on its way and what is submitted in a move is
taken in the move or on its way after it. -/
theorem requests_after
    (service : Service σ)
    (move : Move)
    (isOpen : (service.after rules move).task.isOpen = true) :
    service.requests ++ (⟨service, move⟩ : Occurrence σ).requests =
      (⟨service, move⟩ : Occurrence σ).taken?.toList ++ (service.after rules move).requests := by
  have does := service.does rules move
  generalize service.after rules move = after at does isOpen ⊢
  cases does with
  | idles idle =>
      rw [idle.requests, idle.taken?]
      exact List.append_nil _
  | receives => rfl
  | expires expired =>
      rw [Occurrence.requests, expired]
      rfl
  | takes requests =>
      rw [update_requests _ _ _ isOpen, Occurrence.taken?, requests]
      exact List.append_nil _
  | resolves | ticks | closes =>
      exact (List.append_nil _).trans (update_requests _ _ _ isOpen).symm
  | drops | passesOn | sends => exact List.append_nil _

/-- Nothing is submitted to a land that has ended. -/
theorem handle_closed
    (transport : Transport)
    (clock : Clock)
    (packet : Packet)
    (address : Address) :
    (transport.handle false clock packet address).1 = [] := by
  have asks (number : UInt32) (type payload : String) (isClientEvent : Bool) :
      (transport.handleRequest false clock address number type payload isClientEvent).1 = [] := by
    unfold Transport.handleRequest
    split
    · rfl
    · dsimp only
      split <;> rfl
  unfold Transport.handle
  split
  · rename_i version player device guest metadata
    unfold Transport.handleJoin
    split
    · rfl
    · simp only [Transport.connect]
      cases transport.clients.byAddress? address <;>
        cases (transport.clients.remove address).add? address player clock <;> rfl
  · exact asks _ _ _ false
  · exact asks _ _ _ true
  · rfl
  · split <;> rfl
  · rfl

/-- Nothing is on its way to a land that has ended. -/
theorem requests_of_closed
    {service : Service σ}
    (nothing : service.task.isOpen = false → service.requests = [])
    (move : Move)
    (closed : (service.after rules move).task.isOpen = false) :
    (service.after rules move).requests = [] := by
  have updated (before : Service σ) (acknowledgments : List (Acknowledgment Submitter))
      (task : LandTask σ Submitter)
      (closed : (before.update acknowledgments task).task.isOpen = false) :
      (before.update acknowledgments task).requests = [] :=
    if_neg (Bool.eq_false_iff.1 closed)
  have does := service.does rules move
  generalize service.after rules move = after at does closed ⊢
  cases does with
  | receives clock packet address =>
      have wasClosed : service.task.isOpen = false := closed
      simp only [handlePacket, wasClosed, handle_closed, List.append_nil]
      exact nothing wasClosed
  | expires expired =>
      have wasClosed : service.task.isOpen = false := closed
      simp only [nothing wasClosed, wasClosed]
      rfl
  | takes | resolves | ticks | closes => exact updated _ _ _ closed
  | idles | drops | passesOn | sends => exact nothing closed

/-- What is submitted in a move in front of a land that has ended is nothing. -/
theorem requests_eq_nil_of_closed
    {service : Service σ}
    (closed : service.task.isOpen = false)
    (move : Move) :
    (⟨service, move⟩ : Occurrence σ).requests = [] := by
  cases move with
  | packet clock packet address =>
      simp only [Occurrence.requests, closed]
      exact handle_closed _ _ _ _
  | expire =>
      simp only [Occurrence.requests, closed]
      cases service.expired <;> rfl
  | _ => rfl

namespace Course

variable {past : List (Occurrence σ)} {start service : Service σ}

/-- A course can be cut at everything that happens in it. -/
theorem cut
    {earlier later : List (Occurrence σ)}
    {occurrence : Occurrence σ}
    (course : Course rules start (earlier ++ occurrence :: later) service) :
    Course rules start earlier occurrence.before ∧
      occurrence.before.Takes occurrence.move := by
  generalize whole : earlier ++ occurrence :: later = past at course
  induction course generalizing later with
  | nothing => exact absurd whole (by simp)
  | next course takes inductionHypothesis =>
      rcases List.eq_nil_or_concat later with rfl | ⟨between, last, rfl⟩
      · obtain ⟨rfl, same⟩ := List.append_inj' whole rfl
        obtain rfl := List.singleton_inj.1 same
        exact ⟨course, takes⟩
      · rw [List.concat_eq_append, ← List.cons_append, ← List.append_assoc] at whole
        exact inductionHypothesis (List.append_inj' whole rfl).1

/-- The land of a course that has ended has nothing on its way to it. -/
theorem requests_of_closed
    (course : Course rules start past service)
    (begins : start.requests = [])
    (closed : service.task.isOpen = false) :
    service.requests = [] := by
  induction course with
  | nothing => exact begins
  | next _ _ inductionHypothesis => exact Service.requests_of_closed inductionHypothesis _ closed

/-- While the land is open, it has taken what was submitted first, and the rest is
on its way. -/
theorem submitted_eq
    (course : Course rules start past service)
    (begins : start.requests = [])
    (isOpen : service.task.isOpen = true) :
    submitted past = taken past ++ service.requests := by
  induction course with
  | nothing => exact begins.symm
  | next _ _ inductionHypothesis =>
      rw [submitted_snoc, taken_snoc, inductionHypothesis (isOpen_of_after isOpen),
        List.append_assoc, requests_after _ _ isOpen, List.append_assoc]

/-- The land takes what was submitted first, and what is on its way to it was
submitted next. -/
theorem taken_prefix
    (course : Course rules start past service)
    (begins : start.requests = []) :
    taken past ++ service.requests <+: submitted past := by
  induction course with
  | nothing => simp [taken, begins]
  | next course takes inductionHypothesis =>
      rename_i past service move
      cases isOpen : (service.after rules move).task.isOpen with
      | true =>
          exact (course.next takes).submitted_eq begins isOpen ▸ List.prefix_rfl
      | false =>
          rw [(course.next takes).requests_of_closed begins isOpen, List.append_nil,
            submitted_snoc, taken_snoc]
          have now : (⟨service, move⟩ : Occurrence σ).taken?.toList <+: service.requests := by
            cases move with
            | take => cases requests : service.requests <;> simp [Occurrence.taken?, requests]
            | _ => exact List.nil_prefix
          exact (((List.prefix_append_right_inj _).2 now).trans inductionHypothesis).trans
            (List.prefix_append _ _)

variable {first land : Land σ} {clients : Clients} {config : LandConfig} {created : Timestamp}
  {initial : σ}

/-- What passes on the land of a service is a run, as long as the land is open. -/
theorem fronts
    (started : Land.live rules config created initial = .ok first)
    (course : Course rules (fresh clients first) past service)
    (isOpen : service.task.isOpen = true) :
    service.Fronts rules first (passages past) := by
  induction course with
  | nothing => exact .begins started clients
  | next course takes inductionHypothesis =>
      have wasOpen := isOpen_of_after isOpen
      rw [passages_snoc, Occurrence.passage?, if_pos wasOpen]
      exact (inductionHypothesis wasOpen).after started takes isOpen

/-- Whoever is there by the submitted visits is expected, as long as the land is open
and its resolvers do not fail. -/
theorem attended
    (started : Land.live rules config created initial = .ok first)
    (reliable : rules.Reliable)
    (course : Course rules (fresh clients first) past service)
    (isOpen : service.task.isOpen = true) :
    service.Attended rules (passages past) := by
  induction course with
  | nothing => exact .begins clients first
  | next course takes inductionHypothesis =>
      have wasOpen := isOpen_of_after isOpen
      rw [passages_snoc, Occurrence.passage?, if_pos wasOpen]
      exact (inductionHypothesis wasOpen).after started reliable
        (course.fronts started wasOpen) isOpen

end Course

/-- What happens when some moves are made one after the other. -/
def occurrences (rules : Rules σ) (service : Service σ) : List Move → List (Occurrence σ)
  | [] => []
  | move :: rest => ⟨service, move⟩ :: occurrences rules (service.after rules move) rest

/-- Moves happen after those that are made first. -/
theorem occurrences_append (service : Service σ) (first later : List Move) :
    service.occurrences rules (first ++ later) =
      service.occurrences rules first ++
        (first.foldl (Service.after rules) service).occurrences rules later := by
  induction first generalizing service with
  | nil => rfl
  | cons move rest inductionHypothesis =>
      rw [List.cons_append, occurrences, inductionHypothesis, occurrences, List.cons_append,
        List.foldl_cons]

/-- Moves that a service takes one after the other continue a course. -/
theorem Course.append_occurrences
    {past : List (Occurrence σ)}
    {start service : Service σ}
    (course : Course rules start past service)
    (moves : List Move)
    (takes : service.TakesAll rules moves) :
    Course rules start (past ++ service.occurrences rules moves)
      (moves.foldl (Service.after rules) service) := by
  induction moves generalizing past service with
  | nil => simpa [occurrences] using course
  | cons move rest inductionHypothesis =>
      obtain ⟨first, later⟩ := takes
      rw [occurrences, List.append_cons]
      exact inductionHypothesis (course.next first) later

/-- Moves that a service takes one after the other make a course. -/
theorem Course.of_moves
    (rules : Rules σ)
    (start : Service σ)
    (moves : List Move)
    (takes : start.TakesAll rules moves) :
    Course rules start (start.occurrences rules moves)
      (moves.foldl (Service.after rules) start) := by
  have whole := Course.nothing.append_occurrences moves takes
  rwa [List.nil_append] at whole

end Service
end Chronicle
