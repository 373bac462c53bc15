import NoxSdk.Client.SurbPool
import NoxSdk.Bincode.Payload

/-!
# Claimed replies

`_handleResponseItem` of `client.ts`: a claimed item is matched with a reply block, by the ID that
the item names and otherwise by trial, and its plaintext goes to the request of that block.

An item whose ID the scheduler acks is matched by that ID when the two parsers agree
(`acked_reply_matched_iff`). An item that names a block of version 2 is handed to the request of
that block, or changes nothing, exactly when the block opens the body to a reply that is handed on,
or no block opens it (`v2_reply_isolated_iff`): the trial decryption that follows a failed match is
the path on which another request's block is consumed.
-/

namespace NoxSdk.Client

open NoxSdk.Bincode

/-- `ClaimTiming`, as `Date.now()` values. -/
structure ClaimTiming where
  startedAt : ℤ
  headAt : ℤ
  bodyAt : ℤ
  deriving DecidableEq

/-- `ClaimFormat`. -/
inductive ClaimFormat
  | binary
  | base64
  | json
  | empty
  deriving DecidableEq

/-- `ClaimedItem`, without the mark of a reply that was returned before. -/
structure ClaimedItem where
  id : String
  data : Bytes
  deriving DecidableEq

/-- `DeliveredClaim`. -/
structure DeliveredClaim where
  timing : ClaimTiming
  format : ClaimFormat
  bytes : ℕ
  items : ℕ
  deriving DecidableEq

/-- What replies change of `RequestTiming`. -/
structure ReplyTiming where
  claim : Option DeliveredClaim
  claims : ℕ
  deriving DecidableEq

/-- What `_handleResponseItem` reads and changes of the client. -/
structure ReplyState where
  wasm : Option Wasm
  surbPool : SurbPool
  pending : OrderedMap ℕ ReplyTiming
  streams : List ℕ

/-- What a reply is handed to. -/
inductive Handed
  | stream (requestId : ℕ) (fragment : FragmentWire)
  | fragment (requestId : ℕ) (fragment : FragmentWire)
  | needMoreSurbs (requestId innerRequestId fragmentsRemaining : ℕ)

/-- The request that gets it. -/
def Handed.requestId : Handed → ℕ
  | .stream requestId _ => requestId
  | .fragment requestId _ => requestId
  | .needMoreSurbs requestId _ _ => requestId

/-- The timing of a request after a reply of a claim. -/
def ReplyTiming.note (timing : ReplyTiming) (claim : DeliveredClaim) : ReplyTiming :=
  ⟨timing.claim.or (some claim), timing.claims + 1⟩

/-- The block of an item: by the ID it names, otherwise by trial. -/
def matchReply (wasm : Wasm) (pool : SurbPool) (item : ClaimedItem) :
    Option (SurbPool × ReplyMatch) :=
  ((parseSurbIdFromPacketId item.id).bind (pool.decryptById wasm item.data)).or
    (pool.matchAndDecrypt wasm item.data)

namespace ReplyState

variable (client : ReplyState)

/-- What is noted of the claim that carried a reply. -/
def noteClaim (requestId : ℕ) : Option DeliveredClaim → ReplyState
  | none => client
  | some claim => match client.pending.get? requestId with
    | none => client
    | some timing =>
      { client with pending := client.pending.set requestId (timing.note claim) }

/-- Whom the plaintext of a request is handed to. -/
def receiver (found : ReplyMatch) : Option Handed :=
  match decodeRelayerPayload found.plaintext with
  | .error _ => none
  | .ok decoded =>
    if found.requestId ∈ client.streams then
      match decoded with
      | .serviceResponse _ fragment => some (.stream found.requestId fragment)
      | _ => none
    else
      match decoded with
      | .serviceResponse _ fragment => some (.fragment found.requestId fragment)
      | .needMoreSurbs inner remaining => some (.needMoreSurbs found.requestId inner remaining)
      | _ => none

/-- A matched reply goes to its request. -/
def receive (pool : SurbPool) (found : ReplyMatch) (claim : Option DeliveredClaim) :
    ReplyState × Option Handed :=
  (({ client with surbPool := pool }).noteClaim found.requestId claim, client.receiver found)

/-- `_handleResponseItem`. -/
def handleResponseItem (item : ClaimedItem) (claim : Option DeliveredClaim) :
    ReplyState × Option Handed :=
  match client.wasm with
  | none => (client, none)
  | some wasm => match matchReply wasm client.surbPool item with
    | none => (client, none)
    | some (pool, found) => client.receive pool found claim

variable {client} {item : ClaimedItem} {claim : Option DeliveredClaim} {wasm : Wasm}
  {idHex : String} {entry : SurbEntry} {plaintext : Bytes}

@[simp]
theorem surbPool_noteClaim (requestId : ℕ) :
    (client.noteClaim requestId claim).surbPool = client.surbPool := by
  unfold noteClaim
  split
  · rfl
  · split <;> rfl

/-- Only the timing of the request is noted. -/
theorem pending_noteClaim {requestId other : ℕ} (h : other ≠ requestId) :
    (client.noteClaim requestId claim).pending.get? other = client.pending.get? other := by
  unfold noteClaim
  split
  · rfl
  · split
    · rfl
    · exact OrderedMap.get?_set_of_ne _ _ h

/-- A plaintext that is handed on: a response, or a request for more reply blocks of a request that
is no stream. Everything else, and what does not decode, is dropped. -/
def IsHandedOn (client : ReplyState) (requestId : ℕ) (plaintext : Bytes) : Prop :=
  (∃ inner fragment, decodeRelayerPayload plaintext = .ok (.serviceResponse inner fragment)) ∨
    requestId ∉ client.streams ∧
      ∃ inner remaining, decodeRelayerPayload plaintext = .ok (.needMoreSurbs inner remaining)

theorem exists_receiver_iff {found : ReplyMatch} :
    (∃ handed, client.receiver found = some handed) ↔
      client.IsHandedOn found.requestId found.plaintext := by
  rw [receiver, IsHandedOn]
  cases decodeRelayerPayload found.plaintext with
  | error _ => simp
  | ok decoded =>
    by_cases hstream : found.requestId ∈ client.streams
    · cases decoded <;> simp [hstream]
    · cases decoded <;> simp [hstream]

/-- A plaintext is handed to the request it was matched with. -/
theorem requestId_receiver {found : ReplyMatch} {handed : Handed}
    (h : client.receiver found = some handed) : handed.requestId = found.requestId := by
  rw [receiver] at h
  split at h
  · cases h
  · split_ifs at h
    all_goals split at h <;> cases h <;> rfl

theorem handleResponseItem_of_opens (hwasm : client.wasm = some wasm)
    (hid : parseSurbIdFromPacketId item.id = some idHex)
    (hget : client.surbPool.registry.get? idHex = some entry)
    (hopen : openReply wasm entry item.data = some plaintext) :
    client.handleResponseItem item claim =
      client.receive (client.surbPool.delete idHex) ⟨entry.requestId, plaintext⟩ claim := by
  have hdecrypt : client.surbPool.decryptById wasm item.data idHex =
      some (client.surbPool.delete idHex, ⟨entry.requestId, plaintext⟩) :=
    SurbPool.decryptById_eq_some_iff.mpr ⟨entry, plaintext, hget, hopen, rfl⟩
  have hmatch : matchReply wasm client.surbPool item =
      some (client.surbPool.delete idHex, ⟨entry.requestId, plaintext⟩) := by
    rw [matchReply, hid, Option.bind_some, hdecrypt, Option.some_or]
  rw [handleResponseItem, hwasm]
  dsimp only
  rw [hmatch]

/-- A block that does not open leaves the item to the trial decryption. -/
theorem handleResponseItem_of_not_opens (hwasm : client.wasm = some wasm)
    (hid : ∀ idHex, parseSurbIdFromPacketId item.id = some idHex → ∀ entry,
      client.surbPool.registry.get? idHex = some entry → openReply wasm entry item.data = none) :
    client.handleResponseItem item claim =
      match client.surbPool.matchAndDecrypt wasm item.data with
      | none => (client, none)
      | some (pool, found) => client.receive pool found claim := by
  have hnone : (parseSurbIdFromPacketId item.id).bind
      (client.surbPool.decryptById wasm item.data) = none := by
    refine Option.bind_eq_none_iff.mpr fun idHex hparse => ?_
    refine Option.eq_none_iff_forall_ne_some.mpr fun found hfound => ?_
    obtain ⟨entry, plaintext, hget, hopen, -⟩ := SurbPool.decryptById_eq_some_iff.mp hfound
    cases (hid idHex hparse entry hget).symm.trans hopen
  rw [handleResponseItem, hwasm]
  dsimp only
  rw [matchReply, hnone, Option.none_or]

end ReplyState

/-! ### Acked items -/

/-- The client derives the ID that the scheduler acks, and a registered block under it that opens
the body gives the plaintext to its request, exactly for an item ID with a dash and no capital
letter after the last one. What `receive` does with the plaintext is the same in every case; one
that does not decode is dropped there.

The ID that is acked is the tail of the item ID in lower case, the one that is looked up is the tail
as it stands (`parseSurbIdFromPacketId_of_surbIdOfItem`). They are the same exactly when the tail
has no capital letter. -/
theorem acked_reply_matched_iff (itemId surbId : String)
    (hacked : surbIdOfItem itemId = some surbId) :
    (parseSurbIdFromPacketId itemId = some surbId ∧
      ∀ (client : ReplyState) (wasm : Wasm) (entry : SurbEntry) (data plaintext : Bytes)
        (claim : Option DeliveredClaim), client.wasm = some wasm →
        client.surbPool.registry.get? surbId = some entry →
        openReply wasm entry data = some plaintext →
          client.handleResponseItem ⟨itemId, data⟩ claim =
            client.receive (client.surbPool.delete surbId) ⟨entry.requestId, plaintext⟩ claim) ↔
      '-' ∈ itemId.toList ∧ ∀ c ∈ (Js.afterLast '-' itemId).toList, c.isUpper = false := by
  rw [← parseSurbIdFromPacketId_of_surbIdOfItem hacked]
  refine and_iff_left_of_imp fun hparse => ?_
  intro client wasm entry data plaintext claim hwasm hget hopen
  exact ReplyState.handleResponseItem_of_opens hwasm hparse hget hopen

/-- An ID of a reply block. -/
def sampleSurbId : String := "0123456789abcdef0123456789abcdef"

/-- A module whose recoveries either open every body or none. -/
def sampleWasm : Wasm := ⟨fun json body => if json = "opens" then some (1 :: body) else none⟩

/-- A client with the block of version 2 under `sampleSurbId` and one of version 1 after it. -/
def sampleClient (named other : String) : ReplyState where
  wasm := some sampleWasm
  surbPool := ⟨(OrderedMap.empty.set sampleSurbId ⟨1, named, some .v2⟩).set
    "ffffffffffffffffffffffffffffffff" ⟨2, other, some .v1⟩⟩
  pending := .empty
  streams := []

/-- The rest of the encoding of a `ServiceResponse` after its version byte. -/
def sampleReply : Bytes :=
  ((encodeRelayerPayload (.serviceResponse 7 ⟨7, 1, 0, [42], none⟩)).toOption.getD []).tail

/-- An acked item is matched with the block that its ID names: the reply goes to the request of this
block. -/
theorem acked_reply_matched_iff_sample :
    parseSurbIdFromPacketId ("reply-0-" ++ sampleSurbId) = some sampleSurbId ∧
      (sampleClient "opens" "opens").handleResponseItem ⟨"reply-0-" ++ sampleSurbId, sampleReply⟩
        none = (sampleClient "opens" "opens").receive
          ((sampleClient "opens" "opens").surbPool.delete sampleSurbId) ⟨1, 1 :: sampleReply⟩
          none := by
  have hacked : surbIdOfItem ("reply-0-" ++ sampleSurbId) = some sampleSurbId := by decide +kernel
  have hlower : ∀ c ∈ (Js.afterLast '-' ("reply-0-" ++ sampleSurbId)).toList,
      c.isUpper = false := by
    have hall : (Js.afterLast '-' ("reply-0-" ++ sampleSurbId)).toList.all
        (fun c => !c.isUpper) = true := by decide +kernel
    simpa using hall
  obtain ⟨hparse, hmatched⟩ :=
    (acked_reply_matched_iff _ _ hacked).mpr ⟨by decide +kernel, hlower⟩
  exact ⟨hparse, hmatched (sampleClient "opens" "opens") sampleWasm ⟨1, "opens", some .v2⟩
    sampleReply (1 :: sampleReply) none rfl (by decide +kernel) (by decide +kernel)⟩

/-- The item is acked under the ID of the block, which would open its body, and is not matched. -/
theorem not_acked_reply_matched :
    surbIdOfItem sampleSurbId = some sampleSurbId ∧ parseSurbIdFromPacketId sampleSurbId = none ∧
      (((sampleClient "opens" "fails").surbPool.registry.get? sampleSurbId).bind fun entry =>
        openReply sampleWasm entry [7]) = some [1, 7] ∧
      ((sampleClient "opens" "fails").handleResponseItem ⟨sampleSurbId, [7]⟩ none).2 = none ∧
      ((sampleClient "opens" "fails").handleResponseItem ⟨sampleSurbId, [7]⟩
        none).1.surbPool.registry.size = 2 := by
  decide +kernel

/-! ### Items that name a block of version 2 -/

/-- The item consumes the entry under `idHex` and no other, what the entry makes of its body is
handed to the request of the entry, and no other request notes anything. -/
structure ConsumesOnly (client : ReplyState) (item : ClaimedItem) (idHex : String)
    (entry : SurbEntry) (after : ReplyState × Option Handed) : Prop where
  surbPool : after.1.surbPool = client.surbPool.delete idHex
  handed : ∃ wasm plaintext handed, client.wasm = some wasm ∧
    openReply wasm entry item.data = some plaintext ∧
      client.receiver ⟨entry.requestId, plaintext⟩ = some handed ∧
        after.2 = some handed ∧ handed.requestId = entry.requestId
  others : ∀ other, other ≠ entry.requestId →
    after.1.pending.get? other = client.pending.get? other

theorem consumesOnly_receive_iff {client : ReplyState} {item : ClaimedItem} {idHex : String}
    {entry : SurbEntry} {wasm : Wasm} {plaintext : Bytes} (claim : Option DeliveredClaim)
    (hwasm : client.wasm = some wasm) (hopen : openReply wasm entry item.data = some plaintext) :
    ConsumesOnly client item idHex entry
      (client.receive (client.surbPool.delete idHex) ⟨entry.requestId, plaintext⟩ claim) ↔
        client.IsHandedOn entry.requestId plaintext := by
  constructor
  · rintro ⟨-, ⟨wasm', plaintext', handed, hwasm', hopen', hreceiver, -⟩, -⟩
    obtain rfl := Option.some_inj.mp (hwasm.symm.trans hwasm')
    obtain rfl := Option.some_inj.mp (hopen.symm.trans hopen')
    exact ReplyState.exists_receiver_iff.mp ⟨handed, hreceiver⟩
  · intro hon
    obtain ⟨handed, hreceiver⟩ : ∃ handed,
        client.receiver ⟨entry.requestId, plaintext⟩ = some handed :=
      ReplyState.exists_receiver_iff.mpr hon
    exact {
      surbPool := ReplyState.surbPool_noteClaim _
      handed := ⟨wasm, plaintext, handed, hwasm, hopen, hreceiver, hreceiver,
        ReplyState.requestId_receiver hreceiver⟩
      others := fun _ hother => ReplyState.pending_noteClaim hother }

/-- Without a block the registry is another. -/
theorem ne_delete {pool : SurbPool} {idHex : String} {entry : SurbEntry}
    (hget : pool.registry.get? idHex = some entry) : pool ≠ pool.delete idHex := by
  intro heq
  have hgone : (pool.delete idHex).registry.get? idHex = none :=
    OrderedMap.get?_delete_self _ idHex
  rw [← heq, hget] at hgone
  cases hgone

theorem delete_ne_delete {pool : SurbPool} {idHex other : String} {entry : SurbEntry}
    (hget : pool.registry.get? idHex = some entry) (hne : idHex ≠ other) :
    pool.delete other ≠ pool.delete idHex := by
  intro heq
  have hkept : (pool.delete other).registry.get? idHex = some entry :=
    (OrderedMap.get?_delete_of_ne _ hne).trans hget
  rw [heq] at hkept
  exact absurd ((OrderedMap.get?_delete_self _ idHex).symm.trans hkept) nofun

/-- **A reply that names a block of version 2 touches nothing else**, exactly when the block opens
the body to a reply that is handed on, or neither it nor any block of another version opens the
body.

The three cases are the paths of `_handleResponseItem`. A block that opens the body is consumed
whatever the plaintext says, so a plaintext that is dropped leaves neither of the two outcomes.
After a block that does not open the body comes the trial decryption, which skips version 2:
whatever it finds is another block, and its request gets the reply. -/
theorem v2_reply_isolated_iff (client : ReplyState) (item : ClaimedItem)
    (claim : Option DeliveredClaim) (idHex : String) (entry : SurbEntry)
    (hid : parseSurbIdFromPacketId item.id = some idHex)
    (hget : client.surbPool.registry.get? idHex = some entry)
    (hversion : entry.version = some .v2) :
    (ConsumesOnly client item idHex entry (client.handleResponseItem item claim) ∨
        client.handleResponseItem item claim = (client, none)) ↔
      ∀ wasm, client.wasm = some wasm →
        (∃ plaintext, openReply wasm entry item.data = some plaintext ∧
          client.IsHandedOn entry.requestId plaintext) ∨
        openReply wasm entry item.data = none ∧
          ∀ other otherEntry, client.surbPool.registry.get? other = some otherEntry →
            otherEntry.version ≠ some .v2 → openReply wasm otherEntry item.data = none := by
  rcases hwasm : client.wasm with _ | wasm
  · have hnothing : client.handleResponseItem item claim = (client, none) := by
      rw [ReplyState.handleResponseItem, hwasm]
    exact iff_of_true (.inr hnothing) (by simp)
  simp only [Option.some_inj, forall_eq']
  rcases hopen : openReply wasm entry item.data with _ | plaintext
  · have hnamed : ∀ id, parseSurbIdFromPacketId item.id = some id → ∀ entry',
        client.surbPool.registry.get? id = some entry' →
          openReply wasm entry' item.data = none := by
      intro id hparse entry' hget'
      obtain rfl := Option.some_inj.mp (hid.symm.trans hparse)
      obtain rfl := Option.some_inj.mp (hget.symm.trans hget')
      exact hopen
    rw [ReplyState.handleResponseItem_of_not_opens hwasm hnamed,
      ← SurbPool.matchAndDecrypt_eq_none_iff]
    rcases htrial : client.surbPool.matchAndDecrypt wasm item.data with _ | ⟨pool, found⟩
    · exact iff_of_true (.inr rfl) (.inr ⟨rfl, rfl⟩)
    · refine iff_of_false ?_ (by simp)
      obtain ⟨other, otherEntry, plaintext, hother, hotherVersion, -, hfound⟩ :=
        SurbPool.matchAndDecrypt_spec htrial
      obtain ⟨rfl, rfl⟩ := Prod.mk.inj hfound
      dsimp only
      -- the trial opens blocks of other versions only, so it consumes another block
      have hne : idHex ≠ other := by
        rintro rfl
        obtain rfl := Option.some_inj.mp (hget.symm.trans hother)
        exact hotherVersion hversion
      have hpool : (client.receive (client.surbPool.delete other)
          ⟨otherEntry.requestId, plaintext⟩ claim).1.surbPool = client.surbPool.delete other :=
        ReplyState.surbPool_noteClaim _
      rintro (hconsumes | hnothing)
      · exact delete_ne_delete hget hne (hpool.symm.trans hconsumes.surbPool)
      · rw [hnothing] at hpool
        exact ne_delete hother hpool
  · have hpool : (client.receive (client.surbPool.delete idHex)
        ⟨entry.requestId, plaintext⟩ claim).1.surbPool = client.surbPool.delete idHex :=
      ReplyState.surbPool_noteClaim _
    -- the block is consumed, so the second outcome is out
    have hsome : client.receive (client.surbPool.delete idHex) ⟨entry.requestId, plaintext⟩ claim ≠
        (client, none) := by
      intro hnothing
      rw [hnothing] at hpool
      exact ne_delete hget hpool
    rw [ReplyState.handleResponseItem_of_opens hwasm hid hget hopen, or_iff_left hsome,
      consumesOnly_receive_iff claim hwasm hopen]
    simp

/-- The reply to the block of version 2 is handed to its request, though another block opens it as
well. -/
theorem v2_reply_isolated_iff_sample :
    (ConsumesOnly (sampleClient "opens" "opens") ⟨"reply-0-" ++ sampleSurbId, sampleReply⟩
        sampleSurbId ⟨1, "opens", some .v2⟩ ((sampleClient "opens" "opens").handleResponseItem
          ⟨"reply-0-" ++ sampleSurbId, sampleReply⟩ none) ∨
      (sampleClient "opens" "opens").handleResponseItem
        ⟨"reply-0-" ++ sampleSurbId, sampleReply⟩ none = (sampleClient "opens" "opens", none)) ∧
      ((sampleClient "opens" "opens").handleResponseItem
        ⟨"reply-0-" ++ sampleSurbId, sampleReply⟩ none).2.map Handed.requestId = some 1 := by
  have hopen :
      openReply sampleWasm ⟨1, "opens", some .v2⟩ sampleReply = some (1 :: sampleReply) := by
    decide +kernel
  have hreply : decodeRelayerPayload (1 :: sampleReply) =
      .ok (.serviceResponse 7 ⟨7, 1, 0, [42], none⟩) := by
    decide +kernel
  refine ⟨(v2_reply_isolated_iff _ _ none sampleSurbId ⟨1, "opens", some .v2⟩ (by decide +kernel)
    (by decide +kernel) rfl).mpr fun wasm hwasm => .inl ?_, by decide +kernel⟩
  obtain rfl := Option.some_inj.mp hwasm
  exact ⟨_, hopen, .inl ⟨_, _, hreply⟩⟩

/-- The item names the block of version 2, which does not open its body, and consumes the block of
version 1: the body is handed to another request. -/
theorem not_v2_reply_isolated :
    parseSurbIdFromPacketId ("reply-0-" ++ sampleSurbId) = some sampleSurbId ∧
      (sampleClient "fails" "opens").surbPool.registry.get? sampleSurbId =
        some ⟨1, "fails", some .v2⟩ ∧
      ((sampleClient "fails" "opens").handleResponseItem
        ⟨"reply-0-" ++ sampleSurbId, sampleReply⟩ none).1.surbPool.registry.keys =
          [sampleSurbId] ∧
      ((sampleClient "fails" "opens").handleResponseItem
        ⟨"reply-0-" ++ sampleSurbId, sampleReply⟩ none).2.map Handed.requestId = some 2 := by
  decide +kernel

end NoxSdk.Client
