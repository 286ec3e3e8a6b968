/-
LoadBalancing.LoadBalancer.RequestTranslation — which bytes of a client's
message reach a worker.

A PUT or GET counts the bytes of its key and value; so do STORE_REQUEST and
RETRIEVE_REQUEST. In between, `WorkerClientRequestDispatcherThread` holds
them as strings, which end at their first NUL. So a NUL in a key or a
value cuts it, and two keys that agree up to their first NUL become one.

`translation_exact_iff` is the exact condition, for all pairs of messages
that the decoders accept: no key and no value has a NUL, except in a
message whose key is empty as a string, which is not sent at all.

No `sorry`, no `axiom`, no `native_decide`.
-/
import LoadBalancing.LoadBalancer.RequestDispatcher

namespace LoadBalancing.LoadBalancer

open LoadBalancing.Base LoadBalancing.Lib

/-! ## Keys and values on the wire -/

/-- The key and, in a message that stores, the value. -/
structure Entry where
  key : List UInt8
  value : Option (List UInt8)
  deriving DecidableEq

/-- What a client asks for, as `ReceivePut` and `ReceiveGet` find it in the
payload; `none` for a message they reject. -/
def clientEntry (request : ClientRequest) : Option Entry :=
  match MessageType.ofValue? request.messageType with
  | some .put => match receivePut request.content with
    | .accept (key, value) => some ⟨key, some value⟩
    | _ => none
  | some .get => match receiveGet request.content with
    | .accept key => some ⟨key, none⟩
    | _ => none
  | _ => none

/-- What a worker is asked for, as `ReceiveStoreRequest` and
`ReceiveRetrieveRequest` find it in the payload. -/
def workerEntry (message : Message) : Option Entry :=
  match MessageType.ofValue? message.type with
  | some .storeRequest => match receiveStoreRequest message.payload with
    | .accept (_, key, value) => some ⟨key, some value⟩
    | _ => none
  | some .retrieveRequest => match receiveRetrieveRequest message.payload with
    | .accept (_, key) => some ⟨key, none⟩
    | _ => none
  | _ => none

/-- The entry with its strings cut at their first NUL. -/
def Entry.cut (entry : Entry) : Entry :=
  ⟨(CString.ofBuffer entry.key).bytes, entry.value.map fun value => (CString.ofBuffer value).bytes⟩

/-- What the dispatcher sends for this request has the key and the value of
the client's message, byte by byte. -/
def Exact (request : ClientRequest) : Prop :=
  ∀ message, translate request = .encoded (some message) →
    workerEntry message = clientEntry request

/-- What the dispatcher sends for these requests has different keys. -/
def KeysDiffer (r₁ r₂ : ClientRequest) : Prop :=
  ∀ m₁ m₂, translate r₁ = .encoded (some m₁) → translate r₂ = .encoded (some m₂) →
    (workerEntry m₁).map Entry.key ≠ (workerEntry m₂).map Entry.key

/-- No NUL in the key or the value. -/
def Entry.NoNul (entry : Entry) : Prop :=
  (0 : UInt8) ∉ entry.key ∧ ∀ value ∈ entry.value, (0 : UInt8) ∉ value

instance (entry : Entry) : Decidable entry.NoNul :=
  inferInstanceAs (Decidable (_ ∧ ∀ _, _))

/-! ## The translation of one message -/

/-- Exactly the requests with an entry are accepted. -/
theorem accepts_iff_clientEntry (request : ClientRequest) :
    accepts request = true ↔ ∃ entry, clientEntry request = some entry := by
  unfold accepts clientEntry
  cases MessageType.ofValue? request.messageType with
  | none => simp
  | some type =>
    cases type with
    | put => cases receivePut request.content <;> simp
    | get => cases receiveGet request.content <;> simp
    | _ => simp

theorem Entry.cut_eq_iff (entry : Entry) : entry.cut = entry ↔ entry.NoNul := by
  obtain ⟨key, value⟩ := entry
  cases value with
  | none => simp [Entry.cut, Entry.NoNul, CString.bytes_ofBuffer_eq]
  | some value => simp [Entry.cut, Entry.NoNul, CString.bytes_ofBuffer_eq]

/-- **What is sent is the entry cut at its NULs**, if its key is not empty
then. -/
theorem translate_clientEntry {request : ClientRequest} {entry : Entry}
    (h : clientEntry request = some entry) :
    ∃ message, translate request = .encoded message ∧
      (message = none ↔ ¬ HasKey request.content) ∧
      ∀ m, message = some m → workerEntry m = some entry.cut := by
  obtain ⟨message, htranslate, hnone, -⟩ :=
    translate_of_accepts ((accepts_iff_clientEntry request).mpr ⟨entry, h⟩)
  refine ⟨message, htranslate, hnone, ?_⟩
  intro m hm
  subst hm
  unfold clientEntry at h
  split at h
  · rename_i htype
    split at h
    · rename_i key value hdec
      cases h
      simp only [translate, htype, hdec, Translation.encoded.injEq] at htranslate
      obtain ⟨htype', hdec'⟩ := receiveStoreRequest_sendStoreRequest htranslate
      simp only [workerEntry, htype', MessageType.ofValue?_value, hdec', Entry.cut, Option.map_some]
    · cases h
  · rename_i htype
    split at h
    · rename_i key hdec
      cases h
      simp only [translate, htype, hdec, Translation.encoded.injEq] at htranslate
      obtain ⟨htype', hdec'⟩ := receiveRetrieveRequest_sendRetrieveRequest htranslate
      simp only [workerEntry, htype', MessageType.ofValue?_value, hdec', Entry.cut, Option.map_none]
    · cases h
  · cases h

/-- What the dispatcher puts on the wire of a worker that takes every byte
is the frame of the translated message. -/
theorem dispatch_frame {answers : Socket → Nat → SocketAnswer} {s : DispatcherState}
    {request : ClientRequest} {worker : WorkerNode} {m : Message}
    (haccepts : accepts request = true) (hworker : TakesAll answers worker)
    (htranslate : translate request = .encoded (some m)) :
    ∃ socket calls, (dispatch answers s request worker).wires
      = Function.update s.wires socket ⟨calls, (s.wires socket).wire ++ m.frame⟩ := by
  obtain ⟨socket, hsocket, hhealthy⟩ := hworker
  obtain ⟨message, htranslate', -, hfits⟩ := translate_of_accepts haccepts
  rw [htranslate] at htranslate'
  cases htranslate'
  obtain ⟨calls, hsend⟩ := protocolSend_healthy hhealthy (hfits m rfl).2 (s.wires socket)
  have hpos : (0 : Int) < ((headerSize + m.payload.length : Nat) : Int) := by
    simp only [headerSize]; omega
  refine ⟨socket, calls, ?_⟩
  simp only [dispatch, htranslate, hsocket, sendMessage, hsend, afterSend, if_pos hpos]

/-- A message without a key is not sent, so there is nothing to differ in;
one with a key is exact when it has no NUL. -/
theorem exact_iff {request : ClientRequest} {entry : Entry}
    (h : clientEntry request = some entry) :
    Exact request ↔ (HasKey request.content → entry.NoNul) := by
  obtain ⟨message, htranslate, hnone, hentry⟩ := translate_clientEntry h
  cases message with
  | none =>
    have hkey := hnone.mp rfl
    constructor
    · exact fun _ hhas => absurd hhas hkey
    · intro _ m hm
      rw [htranslate] at hm
      cases hm
  | some m =>
    have hkey : HasKey request.content := by
      by_contra hno
      cases hnone.mpr hno
    have hcut := hentry m rfl
    constructor
    · intro hexact _
      have heq := hexact m htranslate
      rw [hcut, h, Option.some.injEq] at heq
      exact entry.cut_eq_iff.mp heq
    · intro hnoNul m' hm'
      rw [htranslate] at hm'
      cases hm'
      rw [hcut, h, entry.cut_eq_iff.mpr (hnoNul hkey)]

/-- Exact messages with different keys lead to requests for different
keys. -/
theorem keysDiffer_of_exact {r₁ r₂ : ClientRequest} {e₁ e₂ : Entry}
    (h₁ : clientEntry r₁ = some e₁) (h₂ : clientEntry r₂ = some e₂) (hexact₁ : Exact r₁)
    (hexact₂ : Exact r₂) (hkeys : e₁.key ≠ e₂.key) : KeysDiffer r₁ r₂ := by
  intro m₁ m₂ hm₁ hm₂ heq
  rw [hexact₁ m₁ hm₁, hexact₂ m₂ hm₂, h₁, h₂] at heq
  exact hkeys (Option.some.inj heq)

/-- Two keys become one exactly when they agree up to their first NUL. -/
theorem keysDiffer_iff {r₁ r₂ : ClientRequest} {e₁ e₂ : Entry}
    (h₁ : clientEntry r₁ = some e₁) (h₂ : clientEntry r₂ = some e₂)
    (hkey₁ : HasKey r₁.content) (hkey₂ : HasKey r₂.content) :
    KeysDiffer r₁ r₂ ↔ CString.ofBuffer e₁.key ≠ CString.ofBuffer e₂.key := by
  obtain ⟨message₁, htranslate₁, hnone₁, hentry₁⟩ := translate_clientEntry h₁
  obtain ⟨message₂, htranslate₂, hnone₂, hentry₂⟩ := translate_clientEntry h₂
  obtain ⟨m₁, rfl⟩ := Option.ne_none_iff_exists'.mp fun h => hnone₁.mp h hkey₁
  obtain ⟨m₂, rfl⟩ := Option.ne_none_iff_exists'.mp fun h => hnone₂.mp h hkey₂
  have hsame : (workerEntry m₁).map Entry.key = (workerEntry m₂).map Entry.key ↔
      CString.ofBuffer e₁.key = CString.ofBuffer e₂.key := by
    rw [hentry₁ m₁ rfl, hentry₂ m₂ rfl, Option.map_some, Option.map_some, Option.some.injEq]
    exact ⟨CString.ext, congrArg CString.bytes⟩
  constructor
  · intro hdiffer heq
    exact hdiffer m₁ m₂ htranslate₁ htranslate₂ (hsame.mpr heq)
  · intro hne m₁' m₂' hm₁ hm₂ heq
    rw [htranslate₁] at hm₁
    rw [htranslate₂] at hm₂
    cases hm₁
    cases hm₂
    exact hne (hsame.mp heq)

/-! ## Pairs of messages -/

/-- **The translation is byte-exact in exactly the messages without a
NUL**, of those that are sent: for every two messages that the decoders
accept, each reaches its worker with its key and its value and different
keys stay different, if and only if neither has a NUL in them. -/
theorem translation_exact_iff {r₁ r₂ : ClientRequest} {e₁ e₂ : Entry}
    (h₁ : clientEntry r₁ = some e₁) (h₂ : clientEntry r₂ = some e₂) :
    (Exact r₁ ∧ Exact r₂ ∧ (e₁.key ≠ e₂.key → KeysDiffer r₁ r₂)) ↔
      (HasKey r₁.content → e₁.NoNul) ∧ (HasKey r₂.content → e₂.NoNul) := by
  rw [← exact_iff h₁, ← exact_iff h₂]
  constructor
  · exact fun h => ⟨h.1, h.2.1⟩
  · rintro ⟨hexact₁, hexact₂⟩
    exact ⟨hexact₁, hexact₂, keysDiffer_of_exact h₁ h₂ hexact₁ hexact₂⟩

/-- A PUT of client 1 with this payload. -/
def putRequest (payload : List UInt8) : ClientRequest :=
  { Payload.ofMessage MessageType.put.value payload with clientSocket := some 7, clientId := 1 }

/-- A PUT of "k" and a GET of "l". -/
theorem translation_exact_iff_letters :
    Exact (putRequest [0, 1, 107, 0, 1, 118]) ∧ Exact (getRequest [0, 1, 108]) ∧
      (([107] : List UInt8) ≠ [108] →
        KeysDiffer (putRequest [0, 1, 107, 0, 1, 118]) (getRequest [0, 1, 108])) := by
  have hput : clientEntry (putRequest [0, 1, 107, 0, 1, 118]) = some ⟨[107], some [118]⟩ := by
    decide
  have hget : clientEntry (getRequest [0, 1, 108]) = some ⟨[108], none⟩ := by decide
  exact (translation_exact_iff hput hget).mpr ⟨fun _ => by decide, fun _ => by decide⟩

/-- **A NUL makes two keys one**: a PUT of the three bytes "a", NUL, "b"
and a GET of "a" are both accepted, and the worker is asked to store and to
look up "a". -/
theorem nul_joins_keys :
    ¬ ∀ (r₁ r₂ : ClientRequest) (e₁ e₂ : Entry), clientEntry r₁ = some e₁ →
      clientEntry r₂ = some e₂ →
        Exact r₁ ∧ Exact r₂ ∧ (e₁.key ≠ e₂.key → KeysDiffer r₁ r₂) := by
  intro hall
  have hput : clientEntry (putRequest [0, 3, 97, 0, 98, 0, 1, 118])
      = some ⟨[97, 0, 98], some [118]⟩ := by decide
  have hget : clientEntry (getRequest [0, 1, 97]) = some ⟨[97], none⟩ := by decide
  obtain ⟨-, -, hdiffer⟩ := hall _ _ _ _ hput hget
  have hne := (keysDiffer_iff hput hget (by decide) (by decide)).mp (hdiffer (by decide))
  exact hne (by decide)

end LoadBalancing.LoadBalancer
