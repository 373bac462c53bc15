import NoxSdk.Worker.FetchCall
import NoxSdk.Lib.Runs

/-!
# A write on its tunnels

`TlsTransport.exchange` sends a request on a tunnel, and once more on a new tunnel when `retriable`
allows it. `TlsChannel.request` may take several tunnel exchanges on the way: what the TLS session
has to send goes out with the next `seq`, and the request is in whichever of them the session puts
it. A `TunnelHop` is such a call of a request that is not retryable, with the exits and the
upstreams behind its tunnels: a `Flight` is one `seq`, with the bytes of the request in its data,
its copies, and what the exit did with them.

The exits write the data of a `seq` at most once, and refuse the only copy of one with
`UnknownSession`, `Expired` or `UpstreamClosed` only where they did not write it. The TLS session
puts each byte of the request into its output once; all else that it does, the replies, the timers
and the order of it come with the events. The teardown of a refused attempt is left out: all that
the session had to send went out with the `seq` that was refused.
-/

namespace NoxSdk.Worker

open NoxSdk.Lib NoxSdk.Bincode Tls

/-- The codes of `retriable`: the exit did not write the `seq`. -/
def unwrittenCodes : List TunnelRejectCodeV1 := [.unknownSession, .expired, .upstreamClosed]

/-- What `encodeRequest` gives: at least the request line. -/
structure EncodedRequest where
  http : Bytes
  ne_nil : http ≠ []

/-- A `seq` of a request: the attempt it belongs to, how many bytes of the request its data has, its
copies, the refusals of its copies, and whether its data was written to the upstream. -/
structure Flight where
  attempt : ℕ
  carries : ℕ
  copies : ℕ
  refusals : List TunnelRejectCodeV1
  written : Bool

/-- What `TlsTransport.exchange` waits for. -/
inductive HopPhase
  | acquiring
  | sending (tunnel : Tunnel) (seq : ℕ) (stream : Downstream)
  | waiting (tunnel : Tunnel) (spec : ExchangeSpec) (seq : ℕ) (exchange : Exchange)
  | ending
  | failed (error : AttemptError)
  | over

/-- A call of `TlsTransport.exchange`; the newest flight is first. -/
structure TunnelHop where
  attempt : ℕ
  phase : HopPhase
  flights : List Flight

/-- What happens to it. -/
inductive HopEvent
  | acquired (tunnel : Tunnel) (seq : ℕ) (stream : Downstream)
  | acquireFailed
  | exchanges (spec : ExchangeSpec) (carries : ℕ) (env : ExchangeEnv)
  | exchange (event : ExchangeEvent)
  | responds
  /-- The TLS session or the parser throws. -/
  | throws (tlsCode : Option String)
  | caught (aborted : Bool) (remaining : ℕ)
  | writes (flight : ℕ)
  | refuses (flight : ℕ) (code : TunnelRejectCodeV1)

/-- The bytes of the request that the exchanges of an attempt carry. -/
def bytesOf (attempt : ℕ) (flights : List Flight) : ℕ :=
  (flights.map fun flight => if flight.attempt = attempt then flight.carries else 0).sum

/-- A part that rejects the `seq` tells a refusal. -/
def tellsRefusal (refusals : List TunnelRejectCodeV1) (seq : ℕ) : ExchangeEvent → Bool
  | .part body _ _ => match decodeTunnelReplyV1 body with
    | .ok (.rejected replySeq code _ _) => replySeq != seq || decide (code ∈ refusals)
    | _ => true
  | _ => true

/-- What `channel.request` throws itself. -/
def thrownError : Option String → AttemptError
  | some code => .tls code
  | none => .other

namespace TunnelHop

variable (request : EncodedRequest) (hop : TunnelHop)

/-- The start of `exchange`. -/
def start : TunnelHop := ⟨0, .acquiring, []⟩

/-- An exchange goes on or is settled. -/
def settle (tunnel : Tunnel) (spec : ExchangeSpec) (seq : ℕ) (exchange : Exchange) : TunnelHop :=
  { hop with
    flights := hop.flights.modifyHead fun flight => { flight with copies := exchange.copiesSent }
    phase := match exchange.outcomes with
      | [] => .waiting tunnel spec seq exchange
      | .ok .satisfied :: _ => .sending tunnel (seq + 1) exchange.stream
      | .ok .eof :: _ => .ending
      | .error error :: _ => .failed (.tunnel error) }

/-- The `catch` of an attempt. -/
def catchError (error : AttemptError) (aborted : Bool) (remaining : ℕ) : TunnelHop :=
  if aborted ∨ 0 < hop.attempt ∨ remaining = 0 ∨ retriable error false = false then
    { hop with phase := .over }
  else { hop with attempt := hop.attempt + 1, phase := .acquiring }

/-- The exit writes the data of a `seq`. -/
def write (index : ℕ) (flight : Flight) : Option TunnelHop :=
  if flight.refusals.length < flight.copies ∧ flight.written = false then
    some { hop with flights := hop.flights.set index { flight with written := true } }
  else none

/-- The exit refuses a copy. -/
def refuse (index : ℕ) (code : TunnelRejectCodeV1) (flight : Flight) : Option TunnelHop :=
  if flight.refusals.length < flight.copies ∧
      (flight.copies = 1 → code ∈ unwrittenCodes → flight.written = false) then
    some { hop with
      flights := hop.flights.set index { flight with refusals := flight.refusals ++ [code] } }
  else none

/-- One event. -/
def step (event : HopEvent) : Option TunnelHop :=
  match hop.phase, event with
  | _, .writes index => hop.flights[index]?.bind (hop.write index)
  | _, .refuses index code => hop.flights[index]?.bind (hop.refuse index code)
  | .acquiring, .acquired tunnel seq stream => some { hop with phase := .sending tunnel seq stream }
  | .acquiring, .acquireFailed => some { hop with phase := .over }
  | .sending tunnel seq stream, .exchanges spec carries env =>
    if bytesOf hop.attempt hop.flights + carries ≤ request.http.length then
      some ({ hop with flights := ⟨hop.attempt, carries, 0, [], false⟩ :: hop.flights }.settle
        tunnel spec seq (Exchange.start tunnel spec seq env stream))
    else none
  | .sending _ _ _, .responds =>
    if hop.flights.any fun flight => flight.attempt = hop.attempt then
      some { hop with phase := .over }
    else none
  | .sending _ _ _, .throws tlsCode => some { hop with phase := .failed (thrownError tlsCode) }
  | .waiting tunnel spec seq exchange, .exchange event =>
    if tellsRefusal (hop.flights.head?.elim [] Flight.refusals) seq event then
      (exchangeStep tunnel spec seq exchange event).map (hop.settle tunnel spec seq)
    else none
  | .ending, .responds => some { hop with phase := .over }
  | .ending, .throws tlsCode => some { hop with phase := .failed (thrownError tlsCode) }
  | .failed error, .caught aborted remaining => some (hop.catchError error aborted remaining)
  | _, _ => none

/-- The copy of the request that an attempt sent reached the upstream as a whole. -/
def Complete (attempt : ℕ) : Prop :=
  bytesOf attempt hop.flights = request.http.length ∧
    ∀ flight ∈ hop.flights, flight.attempt = attempt → 0 < flight.carries → flight.written = true

/-- The event is not the retry after a refusal of a `seq` that followed the whole request. -/
def Spared : HopEvent → Prop
  | .caught aborted remaining => ¬∃ error, hop.phase = .failed error ∧
      error.refusedUnwritten = true ∧ hop.attempt = 0 ∧ aborted = false ∧ remaining ≠ 0 ∧
        bytesOf 0 hop.flights.tail = request.http.length
  | _ => True

end TunnelHop

/-! ### What an exchange does -/

/-- The exit rejected the `seq`. -/
def refusedBy : Except TunnelError ExchangeOutcome → Bool
  | .error (.rejected _ _ _ _ _) => true
  | _ => false

namespace ExchangeSteps

variable {tunnel : Tunnel} {spec : ExchangeSpec} {seq : ℕ} {env : ExchangeEnv}
  {exchange exchange' exchange'' : Exchange}

/-- Copies are only added, and no rejection is. -/
structure Plain (exchange exchange' : Exchange) : Prop where
  copies_le : exchange.copiesSent ≤ exchange'.copiesSent
  outcomes : ∀ outcome ∈ exchange'.outcomes,
    outcome ∈ exchange.outcomes ∨ refusedBy outcome = false

theorem Plain.of_eq (hcopies : exchange'.copiesSent = exchange.copiesSent)
    (houtcomes : exchange'.outcomes = exchange.outcomes) : Plain exchange exchange' :=
  ⟨hcopies.ge, fun _ hmem => .inl (houtcomes ▸ hmem)⟩

theorem Plain.trans (h : Plain exchange exchange') (h' : Plain exchange' exchange'') :
    Plain exchange exchange'' :=
  ⟨h.copies_le.trans h'.copies_le, fun outcome hmem =>
    (h'.outcomes outcome hmem).elim (h.outcomes outcome) .inr⟩

/-- It does not matter what else was changed before. -/
theorem Plain.after (h : Plain exchange exchange')
    (hcopies : exchange.copiesSent = exchange''.copiesSent)
    (houtcomes : exchange.outcomes = exchange''.outcomes) : Plain exchange'' exchange' :=
  (Plain.of_eq hcopies houtcomes).trans h

theorem plain_finish {outcome : Except TunnelError ExchangeOutcome}
    (houtcome : refusedBy outcome = false) : Plain exchange (exchange.finish outcome) := by
  rw [Exchange.finish]
  split_ifs
  · exact .of_eq rfl rfl
  · refine ⟨le_rfl, fun other hmem => (List.mem_append.mp hmem).imp_right fun hnew => ?_⟩
    rwa [List.mem_singleton.mp hnew]

theorem plain_send : Plain exchange (exchange.send tunnel spec seq env) := by
  rw [Exchange.send]
  split_ifs
  · exact .of_eq rfl rfl
  · exact plain_finish rfl
  · dsimp only
    split
    · exact .after (plain_finish rfl) rfl rfl
    · exact ⟨Nat.le_succ _, fun _ hmem => .inl hmem⟩

theorem plain_timedCopy : Plain exchange (exchange.timedCopy tunnel spec seq env) := by
  rw [Exchange.timedCopy]
  split_ifs
  · exact .of_eq rfl rfl
  · exact .of_eq rfl rfl
  · exact .after plain_send rfl rfl

theorem plain_watchGap : Plain exchange (exchange.watchGap tunnel) := by
  rw [Exchange.watchGap]
  split_ifs <;> exact .of_eq rfl rfl

theorem plain_afterPart {fin : Option TunnelFinV1} :
    Plain exchange (exchange.afterPart tunnel spec seq env fin) := by
  rw [Exchange.afterPart]
  split_ifs
  · exact plain_watchGap.trans plain_send
  · exact plain_watchGap.trans (.of_eq rfl rfl)

/-- A part that is not rejected settles nothing as a refusal. -/
theorem plain_onData {part : TunnelPartV1} {satisfied : Bool} :
    Plain exchange (exchange.onData tunnel spec seq env part satisfied).1 := by
  rw [Exchange.onData]
  split
  · exact plain_finish rfl
  · dsimp only
    split_ifs
    · exact .after (plain_finish rfl) rfl rfl
    · exact .after (plain_finish rfl) rfl rfl
    · exact .after plain_afterPart rfl rfl

/-- A copy that fails is none that is refused. -/
theorem plain_onCopyFailed : Plain exchange (exchange.onCopyFailed tunnel spec seq env) := by
  rw [Exchange.onCopyFailed]
  split_ifs
  · exact plain_timedCopy
  · exact .of_eq rfl rfl

/-- What a new exchange may have done at once. -/
theorem start_plain {stream : Downstream} :
    ∀ outcome ∈ (Exchange.start tunnel spec seq env stream).outcomes,
      refusedBy outcome = false := by
  have hempty : ∀ {exchange : Exchange}, exchange.outcomes = [] → ∀ {exchange'},
      Plain exchange exchange' → ∀ outcome ∈ exchange'.outcomes, refusedBy outcome = false :=
    fun hnil _ hplain outcome hmem => (hplain.outcomes outcome hmem).resolve_left fun hold =>
      absurd (hnil ▸ hold) List.not_mem_nil
  unfold Exchange.start
  dsimp only
  split
  · exact hempty rfl (plain_finish rfl)
  · exact hempty rfl plain_send
  · exact hempty rfl plain_send

/-- A step is plain, or ends the exchange with the rejection that a part tells. Only `onPart` makes
a `TunnelRejectedError`, with whether one copy was sent by then. -/
theorem exchangeStep_cases {event : ExchangeEvent}
    (hstep : exchangeStep tunnel spec seq exchange event = some exchange') :
    Plain exchange exchange' ∨ ∃ body satisfied env code retryable detail,
      event = .part body satisfied env ∧
      decodeTunnelReplyV1 body = .ok (.rejected seq code retryable detail) ∧
      exchange'.copiesSent = exchange.copiesSent ∧
      exchange'.outcomes = exchange.outcomes ++ [.error (.rejected code retryable seq
        (decide (exchange.copiesSent = 1)) detail)] := by
  cases event with
  | part body satisfied env =>
    obtain rfl := Option.some.inj hstep
    rw [Exchange.onPart]
    -- a part behind the end changes nothing, and one that cannot be read ends the exchange plainly
    split_ifs with hsettled
    · exact .inl (.of_eq rfl rfl)
    cases hbody : decodeTunnelReplyV1 body with
    | error error => exact .inl (plain_finish rfl)
    | ok reply =>
      dsimp only
      split_ifs with hseq
      · exact .inl (.of_eq rfl rfl)
      · rw [not_not] at hseq
        cases reply with
        | data replySeq part => exact .inl (.after plain_onData rfl rfl)
        | rejected replySeq code retryable detail =>
          -- the rejection of this exchange: its error says whether one copy was sent
          obtain rfl : replySeq = seq := hseq
          refine .inr ⟨body, satisfied, env, code, retryable, detail, rfl, hbody, ?_, ?_⟩
          · simp [Exchange.finish, hsettled]
          · simp [Exchange.finish, hsettled]
  | copyFailed env => exact .inl (Option.some.inj hstep ▸ plain_onCopyFailed)
  | silence env =>
    obtain ⟨_, -, rfl⟩ := Option.map_eq_some_iff.mp hstep
    exact .inl (.after plain_timedCopy rfl rfl)
  | gap env =>
    obtain ⟨_, -, rfl⟩ := Option.map_eq_some_iff.mp hstep
    dsimp only
    split_ifs
    · exact .inl (.after plain_timedCopy rfl rfl)
    · exact .inl (.of_eq rfl rfl)
  | openTimeout =>
    obtain ⟨_, -, rfl⟩ := Option.map_eq_some_iff.mp hstep
    dsimp only
    split_ifs
    · exact .inl (.of_eq rfl rfl)
    · exact .inl (.after (plain_finish rfl) rfl rfl)
  | deadline =>
    obtain ⟨_, -, rfl⟩ := Option.map_eq_some_iff.mp hstep
    exact .inl (.after (plain_finish rfl) rfl rfl)
  | abort reason =>
    rw [exchangeStep] at hstep
    split_ifs at hstep
    obtain rfl := Option.some.inj hstep
    exact .inl (.after (plain_finish rfl) rfl rfl)

end ExchangeSteps

/-! ### What the exit may have done with a flight -/

section Flights

variable {flight flight' : Flight} {flights : List Flight} {attempt index : ℕ}

/-- No copy is left that could be written. -/
def Flight.Dead (flight : Flight) : Prop :=
  flight.written = false ∧ flight.refusals.length = flight.copies

/-- Each refusal is of a copy, and a flight of one copy that was refused unwritten is. -/
structure Flight.Sound (flight : Flight) : Prop where
  refusals_le : flight.refusals.length ≤ flight.copies
  unwritten : flight.copies = 1 → ∀ code ∈ flight.refusals, code ∈ unwrittenCodes →
    flight.written = false

/-- A sound flight whose only copy was refused is dead. -/
theorem Flight.Sound.dead (h : flight.Sound) (hcopies : flight.copies = 1)
    {code : TunnelRejectCodeV1} (hmem : code ∈ flight.refusals) (hcode : code ∈ unwrittenCodes) :
    flight.Dead := by
  refine ⟨h.unwritten hcopies code hmem hcode, le_antisymm h.refusals_le ?_⟩
  rw [hcopies]
  exact List.length_pos_of_mem hmem

/-- Copies are only added. -/
theorem Flight.Sound.copies (h : flight.Sound) {copies : ℕ} (hle : flight.copies ≤ copies) :
    Flight.Sound { flight with copies } := by
  refine ⟨h.refusals_le.trans hle, fun hone code hmem hcode => ?_⟩
  have hpos : 0 < flight.refusals.length := List.length_pos_of_mem hmem
  have hle' : flight.copies ≤ 1 := hle.trans hone.le
  have hrefusals := h.refusals_le
  exact h.unwritten (by omega) code hmem hcode

/-- What may change in a flight once its exchange is over: it is written or refused, and a dead one
stays dead. -/
structure Flight.Ages (flight flight' : Flight) : Prop where
  attempt_eq : flight'.attempt = flight.attempt
  carries_eq : flight'.carries = flight.carries
  copies_eq : flight'.copies = flight.copies
  sound : flight.Sound → flight'.Sound
  dead : flight.Dead → flight'.Dead

/-- The bytes of an attempt are those of its exchanges. -/
theorem bytesOf_cons :
    bytesOf attempt (flight :: flights) =
      (if flight.attempt = attempt then flight.carries else 0) + bytesOf attempt flights := by
  rw [bytesOf, List.map_cons, List.sum_cons, bytesOf]

/-- Ageing leaves the bytes of an attempt as they are. -/
theorem bytesOf_set (hflight : flights[index]? = some flight) (h : flight.Ages flight') :
    bytesOf attempt (flights.set index flight') = bytesOf attempt flights := by
  induction flights generalizing index with
  | nil => exact absurd hflight nofun
  | cons head rest ih =>
    cases index with
    | zero =>
      obtain rfl := Option.some.inj hflight
      rw [List.set_cons_zero, bytesOf_cons, bytesOf_cons, h.attempt_eq, h.carries_eq]
    | succ index =>
      rw [List.set_cons_succ, bytesOf_cons, bytesOf_cons, ih hflight]

/-- The bytes of an attempt that has not started. -/
theorem bytesOf_eq_zero (h : ∀ flight ∈ flights, flight.attempt ≠ attempt) :
    bytesOf attempt flights = 0 := by
  refine List.sum_eq_zero fun bytes hbytes => ?_
  obtain ⟨flight, hmem, rfl⟩ := List.mem_map.mp hbytes
  exact if_neg (h flight hmem)

/-- The attempt will not reach the upstream as a whole. -/
def Spoiled (request : EncodedRequest) (attempt : ℕ) (flights : List Flight) : Prop :=
  bytesOf attempt flights < request.http.length ∨
    ∃ flight ∈ flights, flight.attempt = attempt ∧ 0 < flight.carries ∧ flight.Dead

/-- An exchange that gets older keeps its attempt short or refused. -/
theorem Spoiled.set {request : EncodedRequest} (h : Spoiled request attempt flights)
    (hflight : flights[index]? = some flight) (hages : flight.Ages flight') :
    Spoiled request attempt (flights.set index flight') := by
  rcases h with hshort | ⟨other, hmem, hattempt, hcarries, hdead⟩
  · exact .inl ((bytesOf_set hflight hages).trans_lt hshort)
  · obtain ⟨position, hposition⟩ := List.mem_iff_getElem?.mp hmem
    rcases eq_or_ne index position with rfl | hne
    · obtain rfl := Option.some.inj (hflight.symm.trans hposition)
      obtain ⟨hlt, -⟩ := List.getElem?_eq_some_iff.mp hflight
      exact .inr ⟨flight', List.mem_set hlt _, hages.attempt_eq.trans hattempt,
        hages.carries_eq ▸ hcarries, hages.dead hdead⟩
    · refine .inr ⟨other, List.mem_iff_getElem?.mpr ⟨position, ?_⟩, hattempt, hcarries, hdead⟩
      rw [List.getElem?_set_ne hne, hposition]

end Flights

/-! ### Runs -/

namespace TunnelHop

open ExchangeSteps

variable {request : EncodedRequest} {hop hop' : TunnelHop}

/-- The newest flight is of this attempt, and has what is said of it. -/
def Newest (hop : TunnelHop) (holds : Flight → Prop) : Prop :=
  ∃ flight rest, hop.flights = flight :: rest ∧ flight.attempt = hop.attempt ∧ holds flight

/-- What every event keeps. -/
structure Sound (request : EncodedRequest) (hop : TunnelHop) : Prop where
  flights : ∀ flight ∈ hop.flights, flight.attempt ≤ hop.attempt ∧ flight.Sound
  attempt_le : hop.attempt ≤ 1
  bytes_le : bytesOf hop.attempt hop.flights ≤ request.http.length
  waiting : ∀ tunnel spec seq exchange, hop.phase = .waiting tunnel spec seq exchange →
    exchange.outcomes = [] ∧ hop.Newest fun flight => flight.copies = exchange.copiesSent
  failed : ∀ error, hop.phase = .failed error → error.refusedUnwritten = true →
    hop.Newest Flight.Dead
  spoiled : 0 < hop.attempt → Spoiled request 0 hop.flights

theorem sound_start : Sound request start where
  flights _ hmem := absurd hmem List.not_mem_nil
  attempt_le := Nat.zero_le 1
  bytes_le := Nat.zero_le _
  waiting _ _ _ _ hphase := absurd hphase nofun
  failed _ hphase := absurd hphase nofun
  spoiled hpos := absurd hpos (lt_irrefl 0)

/-- The call waits for something else, or is over. -/
theorem Sound.phase (h : Sound request hop) {phase : HopPhase}
    (hwaiting : ∀ tunnel spec seq exchange, phase ≠ .waiting tunnel spec seq exchange)
    (hfailed : ∀ error, phase = .failed error → error.refusedUnwritten = false) :
    Sound request { hop with phase } where
  flights := h.flights
  attempt_le := h.attempt_le
  bytes_le := h.bytes_le
  waiting tunnel spec seq exchange hphase := absurd hphase (hwaiting tunnel spec seq exchange)
  failed error hphase hrefused := absurd ((hfailed error hphase).symm.trans hrefused) nofun
  spoiled := h.spoiled

/-- An exchange that gets older stays the newest one. -/
theorem Newest.set {holds : Flight → Prop} {index : ℕ} {flight flight' : Flight}
    (h : hop.Newest holds) (hflight : hop.flights[index]? = some flight)
    (hages : flight.Ages flight') (hkept : holds flight → holds flight') :
    Newest { hop with flights := hop.flights.set index flight' } holds := by
  obtain ⟨newest, rest, hflights, hattempt, hholds⟩ := h
  cases index with
  | zero =>
    rw [hflights] at hflight
    obtain rfl := Option.some.inj hflight
    refine ⟨flight', rest, ?_, hages.attempt_eq.trans hattempt, hkept hholds⟩
    dsimp only
    rw [hflights, List.set_cons_zero]
  | succ index =>
    refine ⟨newest, rest.set index flight', ?_, hattempt, hholds⟩
    dsimp only
    rw [hflights, List.set_cons_succ]

/-- The exit does something with a flight. -/
theorem Sound.ages (h : Sound request hop) {index : ℕ} {flight flight' : Flight}
    (hflight : hop.flights[index]? = some flight) (hages : flight.Ages flight') :
    Sound request { hop with flights := hop.flights.set index flight' } where
  flights other hmem := by
    rcases List.mem_or_eq_of_mem_set hmem with hold | rfl
    · exact h.flights other hold
    · obtain ⟨hle, hsound⟩ := h.flights flight (List.mem_of_getElem? hflight)
      exact ⟨hages.attempt_eq.trans_le hle, hages.sound hsound⟩
  attempt_le := h.attempt_le
  bytes_le := (bytesOf_set hflight hages).trans_le h.bytes_le
  waiting tunnel spec seq exchange hphase := by
    obtain ⟨hopen, hnewest⟩ := h.waiting tunnel spec seq exchange hphase
    exact ⟨hopen, hnewest.set hflight hages fun hcopies => hages.copies_eq.trans hcopies⟩
  failed error hphase hrefused := (h.failed error hphase hrefused).set hflight hages hages.dead
  spoiled hpos := (h.spoiled hpos).set hflight hages

/-- A copy that is written keeps what is known of its exchange. -/
theorem Sound.write (h : Sound request hop) {index : ℕ} {flight : Flight}
    (hflight : hop.flights[index]? = some flight) (hwrite : hop.write index flight = some hop') :
    Sound request hop' := by
  rw [TunnelHop.write] at hwrite
  split_ifs at hwrite with hleft
  obtain rfl := Option.some.inj hwrite
  refine h.ages hflight ⟨rfl, rfl, rfl, fun hsound => ⟨hsound.refusals_le, ?_⟩, fun hdead => ?_⟩
  · -- the only copy has not been refused
    intro hone code hmem
    have hpos : 0 < flight.refusals.length := List.length_pos_of_mem hmem
    have hone' : flight.copies = 1 := hone
    omega
  · exact absurd hdead.2 hleft.1.ne

/-- A refusal is noted for its exchange only. -/
theorem Sound.refuse (h : Sound request hop) {index : ℕ} {code : TunnelRejectCodeV1}
    {flight : Flight} (hflight : hop.flights[index]? = some flight)
    (hrefuse : hop.refuse index code flight = some hop') : Sound request hop' := by
  rw [TunnelHop.refuse] at hrefuse
  split_ifs at hrefuse with hleft
  obtain rfl := Option.some.inj hrefuse
  refine h.ages hflight ⟨rfl, rfl, rfl, fun hsound => ⟨?_, fun hone other hmem hother => ?_⟩,
    fun hdead => ?_⟩
  · dsimp only
    rw [List.length_append]
    exact hleft.1
  · rcases List.mem_append.mp hmem with hold | hnew
    · exact hsound.unwritten hone other hold hother
    · exact hleft.2 hone (List.mem_singleton.mp hnew ▸ hother)
  · exact absurd hdead.2 hleft.1.ne

/-- An exchange goes on, or is settled otherwise than by the refusal of a dead flight. -/
theorem Sound.settle (h : Sound request hop) {tunnel : Tunnel} {spec : ExchangeSpec} {seq : ℕ}
    {exchange : Exchange}
    (hnewest : hop.Newest fun flight => flight.copies ≤ exchange.copiesSent)
    (hrefused : ∀ error ∈ exchange.outcomes.head?, ∀ thrown, error = .error thrown →
      (AttemptError.tunnel thrown).refusedUnwritten = true →
        hop.Newest fun flight => Flight.Dead { flight with copies := exchange.copiesSent }) :
    Sound request (hop.settle tunnel spec seq exchange) := by
  obtain ⟨newest, rest, hflights, hattempt, hcopies⟩ := hnewest
  have hset : (hop.settle tunnel spec seq exchange).flights =
      { newest with copies := exchange.copiesSent } :: rest := by
    rw [TunnelHop.settle, hflights]
    rfl
  have hmem : ∀ flight ∈ newest :: rest, flight.attempt ≤ hop.attempt ∧ flight.Sound :=
    hflights ▸ h.flights
  have hhead : ∀ holds : Flight → Prop, holds { newest with copies := exchange.copiesSent } →
      (hop.settle tunnel spec seq exchange).Newest holds :=
    fun _ hholds => ⟨_, rest, hset, hattempt, hholds⟩
  -- the copies are no part of what a flight has carried
  have hbytes : ∀ attempt, bytesOf attempt (hop.settle tunnel spec seq exchange).flights =
      bytesOf attempt hop.flights := by
    intro attempt
    rw [hset, hflights, bytesOf_cons, bytesOf_cons]
  refine ⟨fun flight hflight => ?_, h.attempt_le, (hbytes hop.attempt).trans_le h.bytes_le,
    fun _ _ _ exchange' hphase => ?_,
    fun error hphase hunwritten => ?_, fun hpos => ?_⟩
  · rw [hset] at hflight
    rcases List.mem_cons.mp hflight with rfl | hold
    · obtain ⟨hle, hsound⟩ := hmem newest List.mem_cons_self
      exact ⟨hle, hsound.copies hcopies⟩
    · exact hmem flight (List.mem_cons_of_mem _ hold)
  · rw [TunnelHop.settle] at hphase
    dsimp only at hphase
    split at hphase
    next houtcomes =>
      injection hphase with _ _ _ hexchange
      subst hexchange
      exact ⟨houtcomes, hhead _ rfl⟩
    all_goals exact absurd hphase nofun
  · rw [TunnelHop.settle] at hphase
    dsimp only at hphase
    rcases houtcomes : exchange.outcomes with _ | ⟨thrown | outcome, others⟩
    · rw [houtcomes] at hphase
      cases hphase
    · rw [houtcomes] at hphase hrefused
      obtain rfl := HopPhase.failed.inj hphase
      obtain ⟨flight, rest', hflights', -, hdead⟩ :=
        hrefused _ rfl thrown rfl hunwritten
      obtain ⟨rfl, rfl⟩ := List.cons.inj (hflights.symm.trans hflights')
      exact hhead _ hdead
    · rw [houtcomes] at hphase
      cases outcome <;> cases hphase
  · -- the flight that goes on belongs to a later attempt than the first
    have hfirst : newest.attempt ≠ 0 := hattempt ▸ (Nat.ne_of_gt hpos)
    rcases h.spoiled hpos with hshort | ⟨other, hother, hzero, hcarries, hdead⟩
    · exact .inl ((hbytes 0).trans_lt hshort)
    · rw [hflights] at hother
      rcases List.mem_cons.mp hother with rfl | hold
      · exact absurd hzero hfirst
      · rw [hset]
        exact .inr ⟨other, List.mem_cons_of_mem _ hold, hzero, hcarries, hdead⟩

/-- A refusal that `retriable` looks for is a rejection. -/
theorem refusedBy_of_refusedUnwritten {thrown : TunnelError}
    (h : (AttemptError.tunnel thrown).refusedUnwritten = true) :
    refusedBy (.error thrown) = true := by
  cases thrown with
  | rejected => rfl
  | _ => exact absurd h nofun

/-- A request that is not retryable is sent again after such a refusal only. -/
theorem retriable_false {error : AttemptError} (h : retriable error false = true) :
    error.refusedUnwritten = true := by
  cases error with
  | tunnel thrown =>
    cases thrown with
    | rejected code retryable seq soleCopy detail =>
      rw [retriable] at h
      split_ifs at h with hunwritten
      · exact hunwritten
      · exact absurd ((Bool.false_and _).symm.trans h) nofun
    | _ => exact absurd h nofun
  | _ => exact absurd h nofun

theorem Sound.exchanges (h : Sound request hop) {tunnel : Tunnel} {seq : ℕ} {stream : Downstream}
    (hphase : hop.phase = .sending tunnel seq stream) {spec : ExchangeSpec} {carries : ℕ}
    {env : ExchangeEnv} (hbytes : bytesOf hop.attempt hop.flights + carries ≤ request.http.length) :
    Sound request
      ({ hop with flights := ⟨hop.attempt, carries, 0, [], false⟩ :: hop.flights }.settle
        tunnel spec seq (Exchange.start tunnel spec seq env stream)) := by
  have hadded : Sound request
      { hop with flights := ⟨hop.attempt, carries, 0, [], false⟩ :: hop.flights } := by
    refine ⟨List.forall_mem_cons.mpr ⟨⟨le_rfl, le_rfl, fun _ _ _ _ => rfl⟩, h.flights⟩,
      h.attempt_le, ?_, fun _ _ _ _ hwaiting => ?_, fun _ hfailed => ?_, fun hpos => ?_⟩
    · rw [bytesOf_cons, if_pos rfl, Nat.add_comm]
      exact hbytes
    · exact absurd (hphase.symm.trans hwaiting) nofun
    · exact absurd (hphase.symm.trans hfailed) nofun
    · rcases h.spoiled hpos with hshort | ⟨other, hother, hspoiled⟩
      · refine .inl ?_
        rw [bytesOf_cons, if_neg (Nat.ne_of_gt hpos), Nat.zero_add]
        exact hshort
      · exact .inr ⟨other, List.mem_cons_of_mem _ hother, hspoiled⟩
  refine hadded.settle ⟨_, _, rfl, rfl, Nat.zero_le _⟩ fun outcome houtcome thrown hthrown
    hunwritten => ?_
  have hplain := start_plain outcome (List.mem_of_mem_head? houtcome)
  rw [hthrown, refusedBy_of_refusedUnwritten hunwritten] at hplain
  exact absurd hplain nofun

/-- An event of the running exchange keeps the invariant. -/
theorem Sound.exchange (h : Sound request hop) {tunnel : Tunnel} {spec : ExchangeSpec} {seq : ℕ}
    {exchange exchange' : Exchange} (hphase : hop.phase = .waiting tunnel spec seq exchange)
    {event : ExchangeEvent}
    (htells : tellsRefusal (hop.flights.head?.elim [] Flight.refusals) seq event = true)
    (hstep : exchangeStep tunnel spec seq exchange event = some exchange') :
    Sound request (hop.settle tunnel spec seq exchange') := by
  obtain ⟨hopen, newest, rest, hflights, hattempt, hcopies⟩ := h.waiting _ _ _ _ hphase
  rcases exchangeStep_cases hstep with
    hplain | ⟨body, satisfied, env, code, retryable, detail, rfl, hbody, hsame, houtcomes⟩
  · refine h.settle ⟨newest, rest, hflights, hattempt, hcopies.trans_le hplain.copies_le⟩
      fun outcome houtcome thrown hthrown hunwritten => ?_
    rcases hplain.outcomes outcome (List.mem_of_mem_head? houtcome) with hbefore | hplain
    · exact absurd (hopen ▸ hbefore) List.not_mem_nil
    · rw [hthrown, refusedBy_of_refusedUnwritten hunwritten] at hplain
      exact absurd hplain nofun
  · refine h.settle ⟨newest, rest, hflights, hattempt, (hcopies.trans hsame.symm).le⟩
      fun outcome houtcome thrown hthrown hunwritten => ⟨newest, rest, hflights, hattempt, ?_⟩
    rw [houtcomes, hopen] at houtcome
    obtain rfl := Option.some.inj houtcome
    obtain rfl := Except.error.inj hthrown
    -- the exit told the refusal of the only copy
    obtain ⟨hcode, hsole⟩ := (Bool.and_eq_true _ _).mp hunwritten
    have hone : newest.copies = 1 := hcopies.trans (of_decide_eq_true hsole)
    rw [tellsRefusal, hbody, hflights] at htells
    have htold : code ∈ newest.refusals := by
      rcases (Bool.or_eq_true _ _).mp htells with hother | hmem
      · exact absurd (hother.symm.trans (bne_self_eq_false seq)) nofun
      · exact of_decide_eq_true hmem
    have hdead : newest.Dead :=
      (h.flights newest (hflights ▸ List.mem_cons_self)).2.dead hone htold (of_decide_eq_true hcode)
    exact ⟨hdead.1, hdead.2.trans (hcopies.trans hsame.symm)⟩

/-- An attempt that fails is repeated only when its bytes are short or its exchange was refused. -/
theorem Sound.catchError (h : Sound request hop) {error : AttemptError}
    (hphase : hop.phase = .failed error) {aborted : Bool} {remaining : ℕ}
    (hspared : hop.Spared request (.caught aborted remaining)) :
    Sound request (hop.catchError error aborted remaining) := by
  rw [TunnelHop.catchError]
  split_ifs with hover
  · exact h.phase (fun _ _ _ _ hwaiting => absurd hwaiting nofun)
      fun _ hfailed => absurd hfailed nofun
  · obtain ⟨haborted, hattempt, hremaining, hretriable⟩ := by
      simpa only [not_or] using hover
    have hzero : hop.attempt = 0 := Nat.eq_zero_of_not_pos hattempt
    have hunwritten := retriable_false (by simpa using hretriable)
    obtain ⟨newest, rest, hflights, hnewest, hdead⟩ := h.failed error hphase hunwritten
    -- the `seq` that was refused carries some of the request, or some of it was never sent
    have hbytes : bytesOf 0 rest ≠ request.http.length := fun hall =>
      hspared ⟨error, hphase, hunwritten, hzero, by simpa using haborted, hremaining,
        by rw [hflights]; exact hall⟩
    have hle := h.bytes_le
    rw [hzero, hflights, bytesOf_cons, if_pos (hnewest.trans hzero)] at hle
    refine ⟨fun flight hmem => ?_, ?_, ?_, fun _ _ _ _ hwaiting => absurd hwaiting nofun,
      fun _ hfailed => absurd hfailed nofun, fun _ => ?_⟩
    · obtain ⟨hattempt_le, hsound⟩ := h.flights flight hmem
      exact ⟨hattempt_le.trans (Nat.le_succ _), hsound⟩
    · rw [hzero]
    · dsimp only
      rw [bytesOf_eq_zero fun flight hmem => ?_]
      · exact Nat.zero_le _
      · exact (Nat.lt_succ_of_le (h.flights flight hmem).1).ne
    · rcases Nat.eq_zero_or_pos newest.carries with hnone | hcarries
      · refine .inl ?_
        dsimp only
        rw [hflights, bytesOf_cons, if_pos (hnewest.trans hzero)]
        omega
      · refine .inr ⟨newest, ?_, hnewest.trans hzero, hcarries, hdead⟩
        dsimp only
        rw [hflights]
        exact List.mem_cons_self

/-- Each event that meets the condition keeps the invariant. -/
theorem Sound.step (h : Sound request hop) {event : HopEvent} (hspared : hop.Spared request event)
    (hstep : hop.step request event = some hop') : Sound request hop' := by
  unfold TunnelHop.step at hstep
  -- a lemma for each step that touches the flights; the others change the phase only
  split at hstep
  · obtain ⟨flight, hflight, hwrite⟩ := Option.bind_eq_some_iff.mp hstep
    exact h.write hflight hwrite
  · obtain ⟨flight, hflight, hrefuse⟩ := Option.bind_eq_some_iff.mp hstep
    exact h.refuse hflight hrefuse
  · obtain rfl := Option.some.inj hstep
    exact h.phase (fun _ _ _ _ hwaiting => absurd hwaiting nofun)
      fun _ hfailed => absurd hfailed nofun
  · obtain rfl := Option.some.inj hstep
    exact h.phase (fun _ _ _ _ hwaiting => absurd hwaiting nofun)
      fun _ hfailed => absurd hfailed nofun
  next hphase =>
    split_ifs at hstep with hbytes
    obtain rfl := Option.some.inj hstep
    exact h.exchanges hphase hbytes
  · split_ifs at hstep
    obtain rfl := Option.some.inj hstep
    exact h.phase (fun _ _ _ _ hwaiting => absurd hwaiting nofun)
      fun _ hfailed => absurd hfailed nofun
  next tlsCode _ =>
    obtain rfl := Option.some.inj hstep
    refine h.phase (fun _ _ _ _ hwaiting => absurd hwaiting nofun) fun error hfailed => ?_
    obtain rfl := HopPhase.failed.inj hfailed
    cases tlsCode <;> rfl
  next hphase =>
    split_ifs at hstep with htells
    obtain ⟨exchange', hexchange, rfl⟩ := Option.map_eq_some_iff.mp hstep
    exact h.exchange hphase htells hexchange
  · obtain rfl := Option.some.inj hstep
    exact h.phase (fun _ _ _ _ hwaiting => absurd hwaiting nofun)
      fun _ hfailed => absurd hfailed nofun
  next tlsCode _ =>
    obtain rfl := Option.some.inj hstep
    refine h.phase (fun _ _ _ _ hwaiting => absurd hwaiting nofun) fun error hfailed => ?_
    obtain rfl := HopPhase.failed.inj hfailed
    cases tlsCode <;> rfl
  next hphase =>
    obtain rfl := Option.some.inj hstep
    exact h.catchError hphase hspared
  · exact absurd hstep nofun

/-- Only the last attempt may have reached the upstream as a whole. -/
theorem Sound.complete (h : Sound request hop) {attempt : ℕ}
    (hcomplete : hop.Complete request attempt) : attempt = hop.attempt := by
  obtain ⟨hbytes, hwritten⟩ := hcomplete
  rcases lt_trichotomy attempt hop.attempt with hbefore | hlast | hlater
  · have hlast := h.attempt_le
    obtain rfl : attempt = 0 := by omega
    rcases h.spoiled hbefore with hshort | ⟨flight, hmem, hattempt, hcarries, hdead⟩
    · exact absurd hbytes hshort.ne
    · exact absurd (hdead.1.symm.trans (hwritten flight hmem hattempt hcarries)) nofun
  · exact hlast
  · have hnone : bytesOf attempt hop.flights = 0 := bytesOf_eq_zero fun flight hmem =>
      ((h.flights flight hmem).1.trans_lt hlater).ne
    exact absurd (List.length_eq_zero_iff.mp (hbytes.symm.trans hnone)) request.ne_nil

end TunnelHop

/-- **A write goes out once.** In every run in which no attempt is repeated after the refusal of a
`seq` that followed the whole request, at most one attempt reaches the upstream as a whole.

The invariant (`Sound`) says that the bytes of an attempt that was given up are short of the
request, or that its exchange was refused and its connection is dead. So an attempt that wrote all
of the request is the last one (`Sound.complete`). -/
theorem one_complete_write {request : EncodedRequest} {hop : TunnelHop}
    (hrun : RunWhen (TunnelHop.step request) (TunnelHop.Spared request) .start hop) :
    ∀ attempt attempt', hop.Complete request attempt → hop.Complete request attempt' →
      attempt = attempt' := by
  have hsound : hop.Sound request := hrun.invariant TunnelHop.sound_start
    fun _ _ _ hbefore hspared hstep => hbefore.step hspared hstep
  exact fun attempt attempt' hcomplete hcomplete' =>
    (hsound.complete hcomplete).trans (hsound.complete hcomplete').symm

/-! ### Two runs -/

private def oneByte : EncodedRequest := ⟨[71], nofun⟩

private def hopTunnel : Tunnel where
  id := List.replicate 16 7
  exit := ⟨"exit", "", "", [], 2, 2, none, none⟩
  host := "example.org"
  tcpPort := 443
  gapMs := 400
  maxCopies := 1
  deliver _ _ := .ok ()

private def hopSpec : ExchangeSpec where
  data := [23, 3, 3]
  surbs := 2
  close := false
  deadlineAt := 9000
  background := false
  signal := .none
  openTimeoutMs := none

private def hopEnv : ExchangeEnv := ⟨1000, 1500, .ok ⟨"e", "m"⟩⟩

/-- The exit answers a `seq`, without data. -/
private def hopPart (seq : UInt8) : Bytes :=
  [1, 0, 0, 0, 0, seq, 0, 0, 0] ++ List.replicate 17 0

/-- The exit does not know the session of a `seq`. -/
private def hopUnknown (seq : UInt8) : Bytes :=
  [1, 1, 0, 0, 0, seq, 0, 0, 0, 10, 0, 0, 0, 0] ++ List.replicate 8 0

/-- The `seq` that carries the request is refused. -/
private def refusedEvents : List HopEvent :=
  [.acquired hopTunnel 1 .start, .exchanges hopSpec 1 hopEnv, .refuses 0 .unknownSession,
    .exchange (.part (hopUnknown 1) false hopEnv)]

/-- The request is written. -/
private def resentEvents : List HopEvent :=
  [.acquired hopTunnel 1 .start, .exchanges hopSpec 1 hopEnv, .writes 0]

theorem one_complete_write_sample : ∃ hop : TunnelHop,
    hop.Complete oneByte 1 ∧ ∀ attempt, hop.Complete oneByte attempt → 1 = attempt := by
  obtain ⟨refused, resent, hop, hrefused, htail, hcaught, hresent, hflights⟩ :
      ∃ refused resent hop,
        runEvents (TunnelHop.step oneByte) .start refusedEvents = some refused ∧
        refused.flights.tail = [] ∧
        refused.step oneByte (.caught false 5000) = some resent ∧
        runEvents (TunnelHop.step oneByte) resent resentEvents = some hop ∧
        hop.flights = [⟨1, 1, 1, [], true⟩, ⟨0, 1, 1, [.unknownSession], false⟩] :=
    ⟨_, _, _, rfl, rfl, rfl, rfl, rfl⟩
  have hspared : refused.Spared oneByte (.caught false 5000) := by
    rintro ⟨_, -, -, -, -, -, hall⟩
    rw [htail] at hall
    exact absurd hall nofun
  have hbefore : ∀ event ∈ refusedEvents, ∀ hop : TunnelHop, hop.Spared oneByte event := by
    simp [refusedEvents, TunnelHop.Spared]
  have hafter : ∀ event ∈ resentEvents, ∀ hop : TunnelHop, hop.Spared oneByte event := by
    simp [resentEvents, TunnelHop.Spared]
  have hrun : RunWhen (TunnelHop.step oneByte) (TunnelHop.Spared oneByte) .start hop :=
    (runWhen_of_runEvents hbefore hrefused).trans
      (.head ⟨_, hspared, hcaught⟩ (runWhen_of_runEvents hafter hresent))
  have hcomplete : hop.Complete oneByte 1 := by
    rw [TunnelHop.Complete, hflights]
    exact ⟨rfl, by simp⟩
  exact ⟨hop, hcomplete, fun attempt hother => one_complete_write hrun 1 attempt hcomplete hother⟩

/-- The request is written, the session has to answer a key update, and the exit has dropped the
session when that comes; the request is sent and written on a new tunnel. -/
private def writtenTwice : List HopEvent :=
  [.acquired hopTunnel 1 .start, .exchanges hopSpec 1 hopEnv, .writes 0,
    .exchange (.part (hopPart 1) true hopEnv), .exchanges hopSpec 0 hopEnv,
    .refuses 0 .unknownSession, .exchange (.part (hopUnknown 2) false hopEnv), .caught false 5000,
    .acquired hopTunnel 1 .start, .exchanges hopSpec 1 hopEnv, .writes 0]

theorem not_one_complete_write : ¬∀ (request : EncodedRequest) (hop : TunnelHop),
    Run (TunnelHop.step request) .start hop → ∀ attempt attempt',
      hop.Complete request attempt → hop.Complete request attempt' → attempt = attempt' := by
  intro hone
  obtain ⟨hop, hrun, hflights⟩ : ∃ hop,
      runEvents (TunnelHop.step oneByte) .start writtenTwice = some hop ∧
        hop.flights = [⟨1, 1, 1, [], true⟩, ⟨0, 0, 1, [.unknownSession], false⟩,
          ⟨0, 1, 1, [], true⟩] := ⟨_, rfl, rfl⟩
  have hfirst : hop.Complete oneByte 0 := by
    rw [TunnelHop.Complete, hflights]
    exact ⟨rfl, by simp⟩
  have hsecond : hop.Complete oneByte 1 := by
    rw [TunnelHop.Complete, hflights]
    exact ⟨rfl, by simp⟩
  exact absurd (hone oneByte hop (run_of_runEvents hrun) 0 1 hfirst hsecond) nofun

end NoxSdk.Worker
