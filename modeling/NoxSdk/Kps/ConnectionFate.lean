import NoxSdk.Kps.Connections

/-!
# What becomes of a connection

Of every connection that a dial of a pool entry came up with it is known what became of it: no one
is forgotten open, and the one that is shared is good (`connection_fate`).

* `Lane.Tracked`: the dials and the shared connection.
* `Lane.Registered`: the exchanges that wait for its end, and the ends that were reported.
-/

namespace NoxSdk.Kps

open NoxSdk.Lib

namespace Lane

/-! ### What holds of an entry -/

/-- A connection is about to be heard of, or shared, or it was told to close, or its end was
reported. -/
def Accounted (lane : Lane) (id : ℕ) (dial : Dial) : Prop :=
  dial.phase = .resolved ∨ lane.conn = some id ∨ 0 < dial.closes ∨
    (dial.closed = true ∧ id ∈ lane.reported)

/-- A dial of the entry. -/
structure Fits (lane : Lane) (id : ℕ) (dial : Dial) : Prop where
  /-- Only the shared dial has not been heard of. -/
  unheard : dial.phase.unheard = true → lane.dial = some id
  pooled : dial.phase = .pooled → dial.connected = true
  connected : dial.connected = true →
    dial.phase ≠ .pending ∧ dial.phase ≠ .failed true ∧ dial.phase ≠ .counted true
  closed : dial.closed = true → dial.phase = .pooled
  fresh : dial.phase = .resolved → lane.closed = false → dial.closes = 0
  accounted : dial.connected = true → lane.Accounted id dial

/-- The dials and the connection of an entry. -/
structure Tracked (lane : Lane) : Prop where
  fits : ∀ {id : ℕ} {dial : Dial}, lane.dials[id]? = some dial → lane.Fits id dial
  last : ∀ {id : ℕ}, lane.dial = some id → id + 1 = lane.dials.length
  /-- The shared dial is under way, or what came of it was no connection. -/
  shared : ∀ {id : ℕ} {dial : Dial}, lane.closed = false → lane.dial = some id →
    lane.dials[id]? = some dial →
      dial.phase.unheard = true ∨ (dial.phase = .refused ∧ dial.connected = false)
  alone : lane.closed = false → lane.conn.isSome = true → lane.dial = none
  /-- A shared connection is good. -/
  conn : ∀ {id : ℕ}, lane.conn = some id → lane.closed = false ∧ ∃ dial,
    lane.dials[id]? = some dial ∧ dial.phase = .pooled ∧ dial.closes = 0 ∧ dial.closed = false

section Lemmas

variable {settings : ConnectionSettings} {lane lane' : Lane} {n m : ℕ} {dial dial' found : Dial}

/-- Another dial than the one that changes. -/
theorem Fits.mono (h : lane.Fits m found)
    (hclosed : lane'.closed = false → lane.closed = false)
    (hdial : lane.dial = some m → lane'.dial = some m)
    (hconn : lane.conn = some m → lane'.conn = some m)
    (hreported : m ∈ lane.reported → m ∈ lane'.reported) : lane'.Fits m found where
  unheard hphase := hdial (h.unheard hphase)
  pooled := h.pooled
  connected := h.connected
  closed := h.closed
  fresh hphase hopen := h.fresh hphase (hclosed hopen)
  accounted hconnected := (h.accounted hconnected).imp_right fun hrest =>
    hrest.imp hconn fun hrest => hrest.imp_right fun hend => ⟨hend.1, hreported hend.2⟩

/-- The dials of an entry of which one changed. -/
theorem Tracked.fits_set (h : Tracked lane) (hget : lane.dials[n]? = some dial)
    (hdials : lane'.dials = lane.dials.set n dial') (hfits : lane'.Fits n dial')
    (hclosed : lane'.closed = false → lane.closed = false)
    (hdial : ∀ m, m ≠ n → lane.dial = some m → lane'.dial = some m)
    (hconn : ∀ m, m ≠ n → lane.conn = some m → lane'.conn = some m)
    (hreported : ∀ m ∈ lane.reported, m ∈ lane'.reported)
    (hfound : lane'.dials[m]? = some found) : lane'.Fits m found := by
  rw [hdials, getElem?_setDial hget] at hfound
  split_ifs at hfound with hm
  · obtain rfl := Option.some.inj hfound
    exact hm ▸ hfits
  · exact (h.fits hfound).mono hclosed (hdial m hm) (hconn m hm) (hreported m)

/-- What changes neither the dials nor which of them are shared. -/
theorem Tracked.same (h : Tracked lane) (hdials : lane'.dials = lane.dials)
    (hclosed : lane'.closed = lane.closed) (hdial : lane'.dial = lane.dial)
    (hconn : lane'.conn = lane.conn) (hreported : lane'.reported = lane.reported) :
    Tracked lane' where
  fits hfound := (h.fits (hdials ▸ hfound)).mono (fun hopen => hclosed ▸ hopen)
    (fun hm => hdial.trans hm) (fun hm => hconn.trans hm) (fun hm => hreported ▸ hm)
  last hm := hdials ▸ h.last (hdial ▸ hm)
  shared hopen hm hfound := h.shared (hclosed ▸ hopen) (hdial ▸ hm) (hdials ▸ hfound)
  alone hopen hm := hdial.trans (h.alone (hclosed ▸ hopen) (hconn ▸ hm))
  conn hm := by
    rw [hclosed, hdials]
    exact h.conn (hconn ▸ hm)

/-- A change of a dial whose connection is not shared. -/
theorem Tracked.setDial (h : Tracked lane) (hget : lane.dials[n]? = some dial)
    (hfits : (lane.setDial n dial').Fits n dial') (hpooled : dial.phase ≠ .pooled)
    (hshared : lane.closed = false → lane.dial = some n →
      dial'.phase.unheard = true ∨ (dial'.phase = .refused ∧ dial'.connected = false)) :
    Tracked (lane.setDial n dial') where
  fits hfound := h.fits_set hget rfl hfits (fun hopen => hopen) (fun _ _ hm => hm)
    (fun _ _ hm => hm) (fun _ hm => hm) hfound
  last hm := (h.last hm).trans List.length_set.symm
  shared hopen hm hfound := by
    rw [Lane.setDial, getElem?_setDial hget] at hfound
    split_ifs at hfound with heq
    · obtain rfl := Option.some.inj hfound
      exact hshared hopen (heq ▸ hm)
    · exact h.shared hopen hm hfound
  alone := h.alone
  conn hm := by
    obtain ⟨hopen, found, hfound, hgood⟩ := h.conn hm
    refine ⟨hopen, found, ?_, hgood⟩
    rw [Lane.setDial, getElem?_setDial hget, if_neg]
    · exact hfound
    · rintro rfl
      obtain rfl := Option.some.inj (hget.symm.trans hfound)
      exact hpooled hgood.1

/-- A new dial, of an entry without any. -/
theorem Tracked.startDial (h : Tracked lane) {now : ℕ} (hconn : lane.conn = none)
    (hdial : lane.dial = none) : Tracked (lane.startDial now) where
  fits := by
    intro m found hfound
    rw [Lane.startDial, List.getElem?_append] at hfound
    split_ifs at hfound with hlt
    · refine (h.fits hfound).mono (fun hopen => hopen) (fun hm => ?_) (fun hm => hm) fun hm => hm
      cases hdial.symm.trans hm
    · rw [List.getElem?_singleton] at hfound
      split_ifs at hfound with hm
      obtain rfl := Option.some.inj hfound
      have hlast : m = lane.dials.length := by omega
      exact ⟨fun _ => congrArg some hlast.symm, by rintro ⟨⟩, by rintro ⟨⟩, by rintro ⟨⟩,
        by rintro ⟨⟩, by rintro ⟨⟩⟩
  last := by
    intro m hm
    obtain rfl := Option.some.inj hm
    rw [Lane.startDial, List.length_append, List.length_singleton]
  shared := by
    intro m found _ hm hfound
    obtain rfl := Option.some.inj hm
    rw [Lane.startDial, List.getElem?_concat_length] at hfound
    obtain rfl := Option.some.inj hfound
    exact .inl rfl
  alone := by
    intro _ hsome
    rw [Lane.startDial, hconn] at hsome
    cases hsome
  conn := by
    intro m hm
    cases hconn.symm.trans hm

/-- A dial of which nothing is shared goes from one phase to another without a connection. -/
theorem Tracked.setPhase (h : Tracked lane) (hget : lane.dials[n]? = some dial) {phase : DialPhase}
    (hunheard : phase.unheard = dial.phase.unheard) (hconnected : dial.connected = false)
    (hpooled : phase ≠ .pooled) (hresolved : phase ≠ .resolved) (hphase : dial.phase ≠ .pooled)
    (hrefused : dial.phase ≠ .refused) :
    Tracked (lane.setDial n { dial with phase }) := by
  have hfits := h.fits hget
  have hnone : ¬dial.connected = true := by simp [hconnected]
  refine h.setDial hget ⟨fun hwaits => hfits.unheard (hunheard ▸ hwaits),
    fun hp => absurd hp hpooled, fun hc => absurd hc hnone,
    fun hend => absurd (hfits.closed hend) hphase, fun hp => absurd hp hresolved,
    fun hc => absurd hc hnone⟩ hphase ?_
  intro hopen hm
  rcases h.shared hopen hm hget with hwaits | ⟨hrefused', -⟩
  · exact .inl (hunheard.trans hwaits)
  · exact absurd hrefused' hrefused

/-- Before its promise settles, a dial has no connection. -/
theorem Fits.connected_eq_false (h : lane.Fits n dial)
    (hphase : dial.phase = .pending ∨ dial.phase = .failed true ∨ dial.phase = .counted true) :
    dial.connected = false := by
  by_contra hconnected
  obtain ⟨hpending, hfailed, hcounted⟩ := h.connected (by simpa using hconnected)
  rcases hphase with hphase | hphase | hphase
  · exact hpending hphase
  · exact hfailed hphase
  · exact hcounted hphase

/-- A promise that resolves tells whether its dial connected. -/
theorem Tracked.onResolved (h : Tracked lane) {isConnection : Bool}
    (hget : lane.dials[n]? = some dial) (hdial : lane.onResolved dial isConnection = some dial') :
    Tracked (lane.setDial n dial') := by
  have hfits := h.fits hget
  rw [Lane.onResolved] at hdial
  split at hdial
  case h_1 hphase =>
    obtain rfl := Option.some.inj hdial
    refine h.setDial hget ?_ (by simp [hphase]) fun _ _ => .inl rfl
    exact ⟨fun _ => hfits.unheard (by rw [hphase]; rfl), by simp, by simp, fun hend =>
      absurd (hfits.closed hend) (by simp [hphase]),
      fun _ hopen => if_neg (Bool.eq_false_iff.mp hopen), fun _ => .inl rfl⟩
  case h_2 hphase =>
    obtain rfl := Option.some.inj hdial
    refine h.setDial hget ?_ (by simp [hphase]) fun _ _ => .inl rfl
    exact ⟨fun _ => hfits.unheard (by rw [hphase]; rfl), by simp, by simp, fun hend =>
      absurd (hfits.closed hend) (by simp [hphase]), by rintro ⟨⟩,
      fun _ => .inr (.inr (.inl Nat.one_pos))⟩
  case h_3 hphase =>
    obtain rfl := Option.some.inj hdial
    refine h.setDial hget ?_ (by simp [hphase]) fun hopen hm => ?_
    · exact ⟨by rintro ⟨⟩, by simp, by simp, fun hend =>
        absurd (hfits.closed hend) (by simp [hphase]), by rintro ⟨⟩,
        fun _ => .inr (.inr (.inl Nat.one_pos))⟩
    · rcases h.shared hopen hm hget with hunheard | ⟨hrefused, -⟩
      · rw [hphase] at hunheard
        cases hunheard
      · cases hphase.symm.trans hrefused
  case h_4 => cases hdial

/-- A promise that rejects has no connection. -/
theorem Tracked.onRejected (h : Tracked lane) (hget : lane.dials[n]? = some dial)
    (hdial : Lane.onRejected dial = some dial') : Tracked (lane.setDial n dial') := by
  have hnone := (h.fits hget).connected_eq_false
  rw [Lane.onRejected] at hdial
  split at hdial
  case h_1 hphase =>
    obtain rfl := Option.some.inj hdial
    exact h.setPhase hget (by rw [hphase]; rfl) (hnone (.inl hphase)) (by simp) (by simp)
      (by simp [hphase]) (by simp [hphase])
  case h_2 hphase =>
    obtain rfl := Option.some.inj hdial
    exact h.setPhase hget (by rw [hphase]; rfl) (hnone (.inr (.inl hphase))) (by simp)
      (by simp) (by simp [hphase]) (by simp [hphase])
  case h_3 hphase =>
    obtain rfl := Option.some.inj hdial
    exact h.setPhase hget (by rw [hphase]; rfl) (hnone (.inr (.inr hphase))) (by simp)
      (by simp) (by simp [hphase]) (by simp [hphase])
  case h_4 => cases hdial

/-- A dial that times out may still connect, and is closed then. -/
theorem Tracked.onTimeout (h : Tracked lane) (hget : lane.dials[n]? = some dial)
    (hdial : Lane.onTimeout dial = some dial') : Tracked (lane.setDial n dial') := by
  rw [Lane.onTimeout] at hdial
  split at hdial
  case h_1 hphase =>
    obtain rfl := Option.some.inj hdial
    exact h.setPhase hget (by rw [hphase]; rfl) ((h.fits hget).connected_eq_false (.inl hphase))
      (by simp) (by simp) (by simp [hphase]) (by simp [hphase])
  case h_2 => cases hdial

/-- The dial that is heard of is the shared one, and no connection is. -/
theorem Tracked.shared_of_unheard (h : Tracked lane) (hget : lane.dials[n]? = some dial)
    (hunheard : dial.phase.unheard = true) (hopen : lane.closed = false) :
    lane.dial = some n ∧ lane.conn = none := by
  have hdial := (h.fits hget).unheard hunheard
  refine ⟨hdial, Option.not_isSome_iff_eq_none.mp fun hsome => ?_⟩
  cases hdial.symm.trans (h.alone hopen hsome)

/-- A connection that is heard of is shared, or closed where the lane is closed. -/
theorem Tracked.onDialled (h : Tracked lane) {now : ℕ} (hget : lane.dials[n]? = some dial)
    (hphase : dial.phase = .resolved) : Tracked (lane.onDialled n dial now) := by
  have hfits := h.fits hget
  have hunclosed : ¬dial.closed = true := fun hend => by
    cases hphase.symm.trans (hfits.closed hend)
  rw [Lane.onDialled]
  split_ifs with hclosed hconnected
  · refine h.setDial hget ?_ (by simp [hphase]) fun hopen => ?_
    · exact ⟨by rintro ⟨⟩, by rintro ⟨⟩, by simp, fun hend => absurd hend hunclosed,
        by rintro ⟨⟩, fun _ => .inr (.inr (.inl (Nat.succ_pos _)))⟩
    · cases hclosed.symm.trans hopen
  · have hopen : lane.closed = false := by simpa using hclosed
    obtain ⟨hdial, hconn⟩ := h.shared_of_unheard hget (by rw [hphase]; rfl) hopen
    constructor
    case fits =>
      refine fun hfound => h.fits_set hget rfl ?_ (fun hopen => hopen) (fun m hm hother => ?_)
        (fun m hm hother => ?_) (fun _ hm => hm) hfound
      · exact ⟨by rintro ⟨⟩, fun _ => hconnected, by simp, fun _ => rfl, by rintro ⟨⟩,
          fun _ => .inr (.inl rfl)⟩
      · exact absurd (Option.some.inj (hother.symm.trans hdial)) hm
      · cases hconn.symm.trans hother
    case last => rintro m ⟨⟩
    case shared => rintro m found _ ⟨⟩
    case alone => exact fun _ _ => rfl
    case conn =>
      intro m hm
      obtain rfl := Option.some.inj hm
      refine ⟨hopen, { dial with phase := .pooled }, ?_, rfl, hfits.fresh hphase hopen,
        by simpa using hunclosed⟩
      exact (getElem?_setDial hget).trans (if_pos rfl)
  · refine h.setDial hget ?_ (by simp [hphase]) fun _ _ => .inr ⟨rfl, by simpa using hconnected⟩
    exact ⟨by rintro ⟨⟩, by rintro ⟨⟩, by simp, fun hend => absurd hend hunclosed, by rintro ⟨⟩,
      fun hc => absurd hc hconnected⟩

/-- A dial that failed leaves nothing to share. -/
theorem Tracked.onDialFailed (h : Tracked lane) {isOpen : Bool} {now : ℕ} {random : ℚ}
    (hget : lane.dials[n]? = some dial) (hphase : dial.phase = .failed isOpen) :
    Tracked (lane.onDialFailed settings n dial isOpen now random) := by
  have hfits := h.fits hget
  have hunclosed : ¬dial.closed = true := fun hend => by
    cases hphase.symm.trans (hfits.closed hend)
  have hlate : dial.connected = true → DialPhase.counted isOpen ≠ .counted true := by
    rintro hconnected ⟨⟩
    exact (hfits.connected hconnected).2.1 hphase
  -- a connection that came in spite of the failure has been closed already
  have haccounted : dial.connected = true → 0 < dial.closes := by
    intro hconnected
    rcases hfits.accounted hconnected with hresolved | hconn | hcloses | ⟨hend, -⟩
    · cases hphase.symm.trans hresolved
    · obtain ⟨-, found, hfound, hpooled, -⟩ := h.conn hconn
      obtain rfl := Option.some.inj (hget.symm.trans hfound)
      cases hphase.symm.trans hpooled
    · exact hcloses
    · exact absurd hend hunclosed
  rw [Lane.onDialFailed]
  split_ifs with hclosed
  · refine h.setDial hget ?_ (by simp [hphase]) fun hopen => ?_
    · exact ⟨by rintro ⟨⟩, by rintro ⟨⟩, fun hc => ⟨by simp, by simp, hlate hc⟩,
        fun hend => absurd hend hunclosed, by rintro ⟨⟩,
        fun hc => .inr (.inr (.inl (haccounted hc)))⟩
    · cases hclosed.symm.trans hopen
  · have hopen : lane.closed = false := by simpa using hclosed
    -- the dial that failed was the one in flight, and nothing is shared
    obtain ⟨hdial, hconn⟩ := h.shared_of_unheard hget (by rw [hphase]; rfl) hopen
    constructor
    case fits =>
      refine fun hfound => h.fits_set hget rfl ?_ (fun hopen => hopen) (fun m hm hother => ?_)
        (fun m hm hother => ?_) (fun _ hm => hm) hfound
      · exact ⟨by rintro ⟨⟩, by rintro ⟨⟩, fun hc => ⟨by simp, by simp, hlate hc⟩,
          fun hend => absurd hend hunclosed, by rintro ⟨⟩,
          fun hc => .inr (.inr (.inl (haccounted hc)))⟩
      · exact absurd (Option.some.inj (hother.symm.trans hdial)) hm
      · exact hother
    case last => rintro m ⟨⟩
    case shared => rintro m found _ ⟨⟩
    case alone => exact fun _ _ => rfl
    case conn =>
      intro m hm
      cases hconn.symm.trans hm

/-- The connection that is given up was shared. -/
theorem Tracked.giveUp (h : Tracked lane) (hconn : lane.conn = some n)
    (hget : lane.dials[n]? = some dial) : Tracked (lane.giveUp n dial) := by
  have hfits := h.fits hget
  obtain ⟨-, found, hfound, hpooled, -, -⟩ := h.conn hconn
  obtain rfl := Option.some.inj (hget.symm.trans hfound)
  constructor
  case fits =>
    refine fun hfound => h.fits_set hget rfl ?_ (fun hopen => hopen) (fun _ _ hm => hm)
      (fun m hm hother => ?_) (fun _ hm => hm) hfound
    · refine ⟨hfits.unheard, hfits.pooled, hfits.connected, hfits.closed, fun hresolved => ?_,
        fun _ => .inr (.inr (.inl (Nat.succ_pos _)))⟩
      cases hpooled.symm.trans hresolved
    · exact absurd (Option.some.inj (hother.symm.trans hconn)) hm
  case last => exact fun hm => (h.last hm).trans List.length_set.symm
  case shared =>
    intro m found hopen hm hfound
    cases hm.symm.trans (h.alone hopen (hconn ▸ rfl))
  case alone => rintro _ ⟨⟩
  case conn => rintro m ⟨⟩

/-- A connection that ends is reported if it was the shared one. -/
theorem Tracked.onClosed (h : Tracked lane) (hget : lane.dials[n]? = some dial)
    (hphase : dial.phase = .pooled) (hunclosed : dial.closed = false) :
    Tracked (lane.onClosed n dial) := by
  have hfits := h.fits hget
  -- a shared connection other than the closed one stays shared
  have hother : ∀ {m}, m ≠ n → lane.conn = some m → (lane.onClosed n dial).conn = some m := by
    intro m hm hconn
    refine (if_neg fun hconn' => ?_).trans hconn
    exact hm (Option.some.inj (hconn.symm.trans hconn'))
  constructor
  case fits =>
    refine fun hfound => h.fits_set hget rfl ?_ (fun hopen => hopen) (fun _ _ hm => hm)
      (fun m hm hconn => hother hm hconn) (fun m hm => ?_) hfound
    · refine ⟨hfits.unheard, hfits.pooled, hfits.connected, fun _ => hphase, hfits.fresh,
        fun hconnected => ?_⟩
      -- if it was the shared one it is reported, and that is its end
      rcases hfits.accounted hconnected with hresolved | hconn | hcloses | ⟨hend, -⟩
      · exact .inl hresolved
      · refine .inr (.inr (.inr ⟨rfl, ?_⟩))
        have hreported : (lane.onClosed n dial).reported = lane.reported ++ [n] :=
          if_pos ⟨hconn, (h.conn hconn).1⟩
        rw [hreported]
        exact List.mem_append_right _ (List.mem_singleton_self n)
      · exact .inr (.inr (.inl hcloses))
      · cases hunclosed.symm.trans hend
    · rw [Lane.onClosed]
      dsimp only
      split_ifs
      · exact List.mem_append_left _ hm
      · exact hm
  case last => exact fun hm => (h.last hm).trans List.length_set.symm
  case shared =>
    intro m found hopen hm hfound
    rw [Lane.onClosed, Lane.setDial, getElem?_setDial hget] at hfound
    split_ifs at hfound with heq
    · obtain rfl := Option.some.inj hfound
      subst heq
      have hshared := h.shared hopen hm hget
      exact hshared
    · exact h.shared hopen hm hfound
  case alone =>
    intro hopen hsome
    refine h.alone hopen ?_
    rw [Lane.onClosed] at hsome
    dsimp only at hsome
    split_ifs at hsome with hconn
    · rw [hconn]
      rfl
    · exact hsome
  case conn =>
    intro m hm
    rw [Lane.onClosed] at hm
    dsimp only at hm
    split_ifs at hm with hconn
    -- the shared connection is another one, and its dial is as it was
    obtain ⟨hopen, found, hfound, hgood⟩ := h.conn hm
    refine ⟨hopen, found, ?_, hgood⟩
    rw [Lane.onClosed, Lane.setDial, getElem?_setDial hget, if_neg]
    · exact hfound
    · rintro rfl
      exact hconn hm

/-- A closed transport leaves what was not shared as it is. -/
theorem Tracked.shut (h : Tracked lane) (hnone : lane.conn = none) (hclosed : lane'.closed = true)
    (hdials : lane'.dials = lane.dials) (hdial : lane'.dial = lane.dial) (hconn : lane'.conn = none)
    (hreported : lane'.reported = lane.reported) : Tracked lane' where
  fits hfound := by
    refine (h.fits (hdials ▸ hfound)).mono (fun hopen => ?_) (fun hm => hdial.trans hm)
      (fun hm => ?_) fun hm => hreported ▸ hm
    · cases hclosed.symm.trans hopen
    · cases hnone.symm.trans hm
  last hm := hdials ▸ h.last (hdial ▸ hm)
  shared hopen := by cases hclosed.symm.trans hopen
  alone hopen := by cases hclosed.symm.trans hopen
  conn hm := by cases hconn.symm.trans hm

/-- The close gives the shared connection up. -/
theorem Tracked.close (h : Tracked lane) : Tracked lane.close := by
  cases hconn : lane.conn with
  | none =>
    have hclose : lane.close.conn = none ∧ lane.close.dials = lane.dials ∧
        lane.close.closed = true ∧ lane.close.dial = lane.dial ∧
          lane.close.reported = lane.reported := by
      rw [Lane.close]
      simp [hconn]
    exact h.shut hconn hclose.2.2.1 hclose.2.1 hclose.2.2.2.1 hclose.1 hclose.2.2.2.2
  | some n =>
    obtain ⟨-, dial, hget, -⟩ := h.conn hconn
    have hclose : lane.close.conn = none ∧ lane.close.dials = (lane.giveUp n dial).dials ∧
        lane.close.closed = true ∧ lane.close.dial = lane.dial ∧
          lane.close.reported = lane.reported := by
      rw [Lane.close]
      simp [hconn, hget, Lane.giveUp, Lane.setDial]
    exact (h.giveUp hconn hget).shut rfl hclose.2.2.1 hclose.2.1 hclose.2.2.2.1 hclose.1
      hclose.2.2.2.2

/-- A new lane has no dial. -/
theorem tracked_new (isClosed : Bool) (now : ℕ) : Tracked (.new isClosed now) where
  fits hfound := by cases hfound
  last := by rintro m ⟨⟩
  shared := by rintro m found _ ⟨⟩
  alone := by rintro _ ⟨⟩
  conn := by rintro m ⟨⟩

/-- Whatever happens to an entry. -/
theorem Tracked.change (h : Tracked lane) (hchange : Change settings lane lane') :
    Tracked lane' := by
  cases hchange with
  | same hdials hclosed hdial hconn hreported => exact h.same hdials hclosed hdial hconn hreported
  | startDial _ hconn hdial => exact h.startDial hconn hdial
  | promise hget hsettles =>
    rcases hsettles with ⟨_, hdial⟩ | hdial | hdial
    · exact h.onResolved hget hdial
    · exact h.onRejected hget hdial
    · exact h.onTimeout hget hdial
  | onDialled hget hphase => exact h.onDialled hget hphase
  | onDialFailed hget hphase => exact h.onDialFailed hget hphase
  | giveUp hget hconn => exact h.giveUp hconn hget
  | onClosed hget hphase hclosed => exact h.onClosed hget hphase hclosed
  | close => exact h.close

/-! ### Connections that are shared, and those that were -/

/-- Exchanges wait only on connections that live, and each end that was reported is the end of a
connection that nobody gave up. -/
structure Registered (lane : Lane) : Prop where
  teardowns : ∀ teardown ∈ lane.teardowns, ∃ dial, lane.dials[teardown.2]? = some dial ∧
    dial.phase = .pooled ∧ dial.closed = false
  reported : ∀ n ∈ lane.reported, ∃ dial, lane.dials[n]? = some dial ∧ dial.phase = .pooled ∧
    dial.closed = true ∧ dial.closes = 0
  nodup : lane.reported.Nodup

/-- What may become of a connection of the pool: it is given up while it is shared, and its end is
the end of the exchanges. -/
def Ages (lane lane' : Lane) (dial dial' : Dial) (n : ℕ) : Prop :=
  dial'.phase = .pooled ∧ (dial'.closes = dial.closes ∨ lane.conn = some n) ∧
    (dial'.closed = dial.closed ∨ (dial'.closed = true ∧ lane'.teardowns = []))

/-- A connection of the pool stays one when a dial changes as it may. -/
theorem exists_ages_set (hget : lane.dials[n]? = some dial)
    (hdials : lane'.dials = lane.dials.set n dial')
    (hages : dial.phase = .pooled → Ages lane lane' dial dial' n)
    (hfound : lane.dials[m]? = some found) (hpooled : found.phase = .pooled) :
    ∃ found', lane'.dials[m]? = some found' ∧ Ages lane lane' found found' m := by
  rw [hdials, getElem?_setDial hget]
  split_ifs with hm
  · subst hm
    obtain rfl := Option.some.inj (hget.symm.trans hfound)
    exact ⟨dial', rfl, hages hpooled⟩
  · exact ⟨found, hfound, hpooled, .inl rfl, .inl rfl⟩

/-- A connection of the pool stays one when no dial changes. -/
theorem exists_ages_same (hdials : lane'.dials = lane.dials) (hfound : lane.dials[m]? = some found)
    (hpooled : found.phase = .pooled) :
    ∃ found', lane'.dials[m]? = some found' ∧ Ages lane lane' found found' m :=
  ⟨found, hdials ▸ hfound, hpooled, .inl rfl, .inl rfl⟩

/-- A promise settles only for a dial that has no shared connection. -/
theorem not_pooled_of_settles (hsettles : (∃ isConnection,
    lane.onResolved dial isConnection = some dial') ∨ Lane.onRejected dial = some dial' ∨
      Lane.onTimeout dial = some dial') : dial.phase ≠ .pooled := by
  intro hphase
  rcases hsettles with ⟨_, hdial⟩ | hdial | hdial
  · rw [Lane.onResolved, hphase] at hdial
    cases hdial
  · rw [Lane.onRejected, hphase] at hdial
    cases hdial
  · rw [Lane.onTimeout, hphase] at hdial
    cases hdial

/-- Whatever happens, a connection of the pool remains one. -/
theorem exists_ages (h : Tracked lane) (hchange : Change settings lane lane')
    (hfound : lane.dials[m]? = some found) (hpooled : found.phase = .pooled) :
    ∃ found', lane'.dials[m]? = some found' ∧ Ages lane lane' found found' m := by
  cases hchange with
  | same hdials => exact exists_ages_same hdials hfound hpooled
  | startDial =>
    refine ⟨found, ?_, hpooled, .inl rfl, .inl rfl⟩
    have hlt : m < lane.dials.length := (List.getElem?_eq_some_iff.mp hfound).1
    exact (List.getElem?_append_left hlt).trans hfound
  | promise hget hsettles =>
    exact exists_ages_set hget rfl (fun hphase => absurd hphase (not_pooled_of_settles hsettles))
      hfound hpooled
  | @onDialled n now dial hget hphase =>
    -- the dial that is heard of was not in the pool yet
    have hages : ∀ dial', dial.phase = .pooled →
        Ages lane (lane.onDialled n dial now) dial dial' n := fun _ hpooled => by
      cases hphase.symm.trans hpooled
    rw [Lane.onDialled] at hages ⊢
    split_ifs at hages ⊢ <;> exact exists_ages_set hget rfl (hages _) hfound hpooled
  | @onDialFailed n now dial isOpen random hget hphase =>
    have hages : ∀ dial', dial.phase = .pooled →
        Ages lane (lane.onDialFailed settings n dial isOpen now random) dial dial' n :=
      fun _ hpooled => by cases hphase.symm.trans hpooled
    rw [Lane.onDialFailed] at hages ⊢
    split_ifs at hages ⊢ <;> exact exists_ages_set hget rfl (hages _) hfound hpooled
  | giveUp hget hconn =>
    exact exists_ages_set hget rfl (fun hphase => ⟨hphase, .inr hconn, .inl rfl⟩) hfound hpooled
  | onClosed hget =>
    exact exists_ages_set hget rfl (fun hphase => ⟨hphase, .inl rfl, .inr ⟨rfl, rfl⟩⟩) hfound
      hpooled
  | close =>
    cases hconn : lane.conn with
    | none =>
      refine exists_ages_same ?_ hfound hpooled
      rw [Lane.close]
      simp [hconn]
    | some n =>
      -- `close` gives the shared connection up and leaves the others alone
      obtain ⟨-, dial, hget, hphase, -⟩ := h.conn hconn
      let dial' : Dial := { dial with closes := dial.closes + 1 }
      have hdials : lane.close.dials = lane.dials.set n dial' := by
        rw [Lane.close]
        simp [hconn, hget, Lane.giveUp, Lane.setDial, dial']
      exact exists_ages_set hget hdials (fun _ => ⟨hphase, .inr hconn, .inl rfl⟩) hfound hpooled

/-- A teardown that is left was there before, or its connection is shared. -/
theorem teardowns_of_change (hchange : Change settings lane lane') {teardown : ℕ × ℕ}
    (h : teardown ∈ lane'.teardowns) :
    teardown ∈ lane.teardowns ∨ lane.conn = some teardown.2 := by
  cases hchange with
  | same _ _ _ _ _ _ _ hteardowns => exact hteardowns teardown h
  | startDial => exact .inl h
  | promise => exact .inl h
  | onDialled =>
    rw [Lane.onDialled] at h
    split_ifs at h <;> exact .inl h
  | onDialFailed =>
    rw [Lane.onDialFailed] at h
    split_ifs at h <;> exact .inl h
  | giveUp => exact .inl h
  | onClosed => cases h
  | close =>
    rw [Lane.close] at h
    dsimp only at h
    split at h <;> cases h

/-- An end that is reported is that of the shared connection. -/
theorem reported_of_change (hchange : Change settings lane lane') :
    lane'.reported = lane.reported ∨ ∃ n dial, lane.conn = some n ∧ lane.dials[n]? = some dial ∧
      lane' = lane.onClosed n dial ∧ lane'.reported = lane.reported ++ [n] := by
  cases hchange with
  | same _ _ _ _ hreported => exact .inl hreported
  | startDial => exact .inl rfl
  | promise => exact .inl rfl
  | onDialled =>
    rw [Lane.onDialled]
    split_ifs <;> exact .inl rfl
  | onDialFailed =>
    rw [Lane.onDialFailed]
    split_ifs <;> exact .inl rfl
  | giveUp => exact .inl rfl
  | @onClosed n dial hget =>
    by_cases hconn : lane.conn = some n ∧ lane.closed = false
    · exact .inr ⟨n, dial, hconn.1, hget, rfl, if_pos hconn⟩
    · exact .inl (if_neg hconn)
  | close =>
    rw [Lane.close]
    dsimp only
    split <;> exact .inl rfl

/-- A teardown is registered only for a connection that was shared. -/
theorem Registered.change (h : Registered lane) (htracked : Tracked lane)
    (hchange : Change settings lane lane') : Registered lane' := by
  -- a connection whose end was heard of is not shared
  have hended : ∀ n ∈ lane.reported, lane.conn ≠ some n := by
    intro n hn hconn
    obtain ⟨dial, hget, -, hclosed, -⟩ := h.reported n hn
    obtain ⟨-, found, hfound, -, -, hunclosed⟩ := htracked.conn hconn
    obtain rfl := Option.some.inj (hget.symm.trans hfound)
    cases hclosed.symm.trans hunclosed
  have hkept : ∀ n ∈ lane.reported, ∃ dial, lane'.dials[n]? = some dial ∧ dial.phase = .pooled ∧
      dial.closed = true ∧ dial.closes = 0 := by
    intro n hn
    obtain ⟨dial, hget, hphase, hclosed, hcloses⟩ := h.reported n hn
    obtain ⟨dial', hget', hphase', hcloses', hclosed'⟩ := exists_ages htracked hchange hget hphase
    refine ⟨dial', hget', hphase', ?_, ?_⟩
    · rcases hclosed' with hsame | ⟨hend, -⟩
      · exact hsame.trans hclosed
      · exact hend
    · exact (hcloses'.resolve_right (hended n hn)).trans hcloses
  constructor
  case teardowns =>
    intro teardown hmem
    have hbefore : ∃ dial, lane.dials[teardown.2]? = some dial ∧ dial.phase = .pooled ∧
        dial.closed = false := by
      rcases teardowns_of_change hchange hmem with hmem | hconn
      · exact h.teardowns teardown hmem
      · obtain ⟨-, dial, hget, hphase, -, hclosed⟩ := htracked.conn hconn
        exact ⟨dial, hget, hphase, hclosed⟩
    obtain ⟨dial, hget, hphase, hclosed⟩ := hbefore
    obtain ⟨dial', hget', hphase', -, hclosed'⟩ := exists_ages htracked hchange hget hphase
    refine ⟨dial', hget', hphase', ?_⟩
    rcases hclosed' with hsame | ⟨-, hnone⟩
    · exact hsame.trans hclosed
    · rw [hnone] at hmem
      cases hmem
  case reported =>
    intro n hn
    rcases reported_of_change hchange with hsame | ⟨m, dial, hconn, hget, rfl, hmore⟩
    · exact hkept n (hsame ▸ hn)
    · rw [hmore] at hn
      rcases List.mem_append.mp hn with hn | hn
      · exact hkept n hn
      · obtain rfl := List.mem_singleton.mp hn
        obtain ⟨-, found, hfound, hphase, hcloses, -⟩ := htracked.conn hconn
        obtain rfl := Option.some.inj (hget.symm.trans hfound)
        exact ⟨_, (getElem?_setDial hget).trans (if_pos rfl), hphase, rfl, hcloses⟩
  case nodup =>
    rcases reported_of_change hchange with hsame | ⟨m, dial, hconn, -, -, hmore⟩
    · exact hsame ▸ h.nodup
    · rw [hmore]
      refine List.nodup_append.mpr ⟨h.nodup, List.nodup_singleton m, fun n hn m' hm' => ?_⟩
      rintro rfl
      exact hended n hn (List.mem_singleton.mp hm' ▸ hconn)

/-! ### Every run of an entry -/

/-- The fate of every dial of a reachable lane is known. -/
theorem Reachable.tracked (h : Reachable settings lane) : Tracked lane := by
  obtain ⟨isClosed, now, hrun⟩ := h
  exact hrun.invariant (tracked_new isClosed now) fun _ _ _ hbefore hstep =>
    hbefore.change (change_of_step hstep)

/-- The teardowns of a reachable lane are of connections that were shared. -/
theorem Reachable.registered (h : Reachable settings lane) : Registered lane := by
  obtain ⟨isClosed, now, hrun⟩ := h
  have hboth : Tracked lane ∧ Registered lane :=
    hrun.invariant ⟨tracked_new isClosed now, by rintro _ ⟨⟩, by rintro _ ⟨⟩, List.nodup_nil⟩
      fun _ _ _ hbefore hstep => ⟨hbefore.1.change (change_of_step hstep),
        hbefore.2.change hbefore.1 (change_of_step hstep)⟩
  exact hboth.2

/-- **No connection is forgotten.** In every run of a pool entry, whatever a dial came up with, late
or not: a connection is about to be heard of, or it is the shared one, or it was told to close, or
it closed by itself, which the listeners were told exactly once. The shared connection is one that
nobody told to close and that has not closed, and each exchange that waits for the end of its
connection is on one that has not closed.

Dials stay in the list of the lane, so each has a state at the end of the run. The invariant
(`Tracked`) says which states the lane leaves it, and each change of the lane keeps it
(`Tracked.change`). -/
theorem connection_fate (hrun : Reachable settings lane) :
    (∀ n dial, lane.dials[n]? = some dial → dial.connected = true →
      (dial.phase = .resolved ∨ lane.conn = some n ∨ 0 < dial.closes ∨ n ∈ lane.reported) ∧
      (n ∈ lane.reported ↔ dial.closed = true ∧ dial.closes = 0)) ∧
    lane.reported.Nodup ∧
    (∀ n, lane.conn = some n → lane.closed = false ∧ lane.dial = none ∧ ∃ dial,
      lane.dials[n]? = some dial ∧ dial.connected = true ∧ dial.closes = 0 ∧
        dial.closed = false) ∧
    ∀ exchange n, (exchange, n) ∈ lane.teardowns → ∃ dial, lane.dials[n]? = some dial ∧
      dial.connected = true ∧ dial.closed = false := by
  have htracked := hrun.tracked
  have hregistered := hrun.registered
  refine ⟨fun n dial hget hconnected => ⟨?_, fun hn => ?_, fun ⟨hclosed, hcloses⟩ => ?_⟩,
    hregistered.nodup, fun n hconn => ?_, fun exchange n hmem => ?_⟩
  · rcases (htracked.fits hget).accounted hconnected with h | h | h | h
    · exact .inl h
    · exact .inr (.inl h)
    · exact .inr (.inr (.inl h))
    · exact .inr (.inr (.inr h.2))
  · obtain ⟨found, hfound, -, hend⟩ := hregistered.reported n hn
    obtain rfl := Option.some.inj (hget.symm.trans hfound)
    exact hend
  · have hpooled := (htracked.fits hget).closed hclosed
    rcases (htracked.fits hget).accounted hconnected with h | h | h | h
    · cases hpooled.symm.trans h
    · obtain ⟨-, found, hfound, -, -, hunclosed⟩ := htracked.conn h
      obtain rfl := Option.some.inj (hget.symm.trans hfound)
      cases hclosed.symm.trans hunclosed
    · omega
    · exact h.2
  · obtain ⟨hopen, dial, hget, hpooled, hcloses, hclosed⟩ := htracked.conn hconn
    refine ⟨hopen, htracked.alone hopen (hconn ▸ rfl), dial, hget, ?_, hcloses, hclosed⟩
    exact (htracked.fits hget).pooled hpooled
  · obtain ⟨dial, hget, hpooled, hclosed⟩ := hregistered.teardowns _ hmem
    exact ⟨dial, hget, (htracked.fits hget).pooled hpooled, hclosed⟩

end Lemmas

end Lane

/-! ### A dial that is late, and one that is in time -/

private def fateSettings : ConnectionSettings := ⟨500, 15000, 60000, 2, 1, 30000, by decide +kernel⟩

/-- The first dial times out and comes up all the same; the second one is in time, and its
connection closes. -/
private def fateEvents : List (ℕ × LaneEvent) :=
  [(0, .connect), (10000, .timeout 0), (10000, .heard 0 (1 / 2)), (10300, .resolved 0 true),
    (10400, .connect), (10500, .resolved 1 true), (10500, .heard 1 0), (10600, .addTeardown 7 1),
    (20000, .closed 1)]

private def fateBehind : Lane where
  dials := [
    ⟨0, .counted false, true, 1, false, some (10000, 1)⟩,
    ⟨10400, .pooled, true, 0, true, none⟩]
  lastActivity := 10500
  torn := [7]
  reported := [1]

/-- A connection that is shared, ends and is reported once. -/
theorem Lane.connection_fate_sample :
    runEvents (Lane.step fateSettings) (.new false 0) fateEvents = some fateBehind ∧
      (1 ∈ fateBehind.reported ↔ true = true ∧ 0 = 0) ∧ fateBehind.reported.Nodup := by
  have hrun : runEvents (Lane.step fateSettings) (.new false 0) fateEvents = some fateBehind := by
    decide +kernel
  obtain ⟨hfate, hnodup, -⟩ := Lane.connection_fate ⟨false, 0, run_of_runEvents hrun⟩
  exact ⟨hrun, (hfate 1 ⟨10400, .pooled, true, 0, true, none⟩ rfl rfl).2, hnodup⟩

end NoxSdk.Kps
