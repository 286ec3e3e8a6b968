/-
LoadBalancing.Client.Keys — client keys never collide.

A key is the port, the process id and the number of the message, in
decimal, with '|' between them. No numeral has a '|', so the parts can be
told apart (`keyText_injective`), and three numerals of 32 bits are at most
34 characters, so `snprintf` never cuts them off (`generateKey_eq`): what
the buffer holds determines the three numbers.

`keysSent_run` follows the sender through its loop: the PUTs it has sent
carry the keys of the messages 1, 2, .. in order, and so do the GETs, which
lag behind. So no key is ever put twice, by one client or by two
(`keys_never_collide`).

No `sorry`, no `axiom`, no `native_decide`.
-/
import LoadBalancing.Base.Numerals
import LoadBalancing.Client.VerificationRun
import LoadBalancing.Lib.ProtocolCodec
import Mathlib.Data.List.Nodup

namespace LoadBalancing.Client

open LoadBalancing.Base LoadBalancing.Lib

/-! ## The text of a key -/

/-- What `GenerateKey` formats: `"%d|%lu|%d"`. -/
def keyText (localPort : Int32) (processId : UInt32) (id : Int) : String :=
  toString localPort.toInt ++ "|" ++ toString processId.toNat ++ "|" ++ toString id

section KeyText

variable (localPort : Int32) (processId : UInt32)

theorem toList_keyText (id : Int) :
    (keyText localPort processId id).toList =
      (toString localPort.toInt).toList ++
        '|' :: ((toString processId.toNat).toList ++ '|' :: (toString id).toList) := by
  have hbar : "|".toList = ['|'] := rfl
  simp only [keyText, String.toList_append, hbar, List.append_assoc, List.cons_append,
    List.nil_append]

theorem plain_keyText (id : Int) : Numerals.Plain (keyText localPort processId id) := by
  have hbar : Numerals.Plain "|" := by
    intro c hc
    rw [List.mem_singleton.mp hc]
    decide
  have hport : Numerals.Plain (toString localPort.toInt) :=
    Numerals.plain_of_isNumeral fun _ => Numerals.isNumeral_of_mem_int
  have hprocess : Numerals.Plain (toString processId.toNat) :=
    Numerals.plain_of_isNumeral fun _ => Numerals.isNumeral_of_mem_nat
  have hid : Numerals.Plain (toString id) :=
    Numerals.plain_of_isNumeral fun _ => Numerals.isNumeral_of_mem_int
  exact (((hport.append hbar).append hprocess).append hbar).append hid

/-- Ten digits and a sign hold an `int`. -/
theorem length_toString_int32 (n : Int32) : (toString n.toInt).toList.length ≤ 11 := by
  have hlow := n.le_toInt
  have hhigh := n.toInt_lt
  exact Numerals.length_toString_int_le (by decide) (by omega)

/-- Ten digits hold a `DWORD`. -/
theorem length_toString_uint32 (n : UInt32) : (toString n.toNat).toList.length ≤ 10 := by
  have hhigh := n.toNat_lt
  exact Numerals.length_toString_nat_le (by decide) (by omega)

theorem length_keyText_le (id : Int32) :
    (keyText localPort processId id.toInt).toList.length ≤ 34 := by
  have hport := length_toString_int32 localPort
  have hprocess := length_toString_uint32 processId
  have hid := length_toString_int32 id
  simp only [toList_keyText, List.length_append, List.length_cons]
  omega

/-- **The text determines the numbers**: each '|' shows where a numeral
ends. -/
theorem keyText_injective {localPort localPort' : Int32} {processId processId' : UInt32}
    {id id' : Int} (h : keyText localPort processId id = keyText localPort' processId' id') :
    localPort = localPort' ∧ processId = processId' ∧ id = id' := by
  have hbar : ¬ Numerals.IsNumeral '|' := by
    intro hnumeral
    exact absurd hnumeral.toNat (by decide)
  have hint : ∀ i : Int, '|' ∉ (toString i).toList := fun i hmem =>
    hbar (Numerals.isNumeral_of_mem_int hmem)
  have hnat : ∀ n : Nat, '|' ∉ (toString n).toList := fun n hmem =>
    hbar (Numerals.isNumeral_of_mem_nat hmem)
  have hlist := congrArg String.toList h
  rw [toList_keyText, toList_keyText] at hlist
  obtain ⟨hport, hrest⟩ := (Numerals.separated_inj (hint _) (hint _)).mp hlist
  obtain ⟨hprocess, hid⟩ := (Numerals.separated_inj (hnat _) (hnat _)).mp hrest
  exact ⟨Int32.toInt_inj.mp (Numerals.toString_int_injective hport),
    UInt32.toNat_inj.mp (Numerals.toString_nat_injective hprocess),
    Numerals.toString_int_injective hid⟩

end KeyText

/-! ## Keys -/

section Keys

variable (localPort : Int32) (processId : UInt32)

/-- `snprintf` keeps what fits in the buffer with its terminator. -/
theorem generateKey_eq_truncate (id : Int) :
    generateKey localPort processId id =
      (CString.ofString (keyText localPort processId id)).truncate (maxKeySize - 1) := rfl

/-- **A key is never truncated.** -/
theorem generateKey_eq (id : Int32) :
    generateKey localPort processId id.toInt =
      CString.ofString (keyText localPort processId id.toInt) := by
  have hlength := length_keyText_le localPort processId id
  rw [generateKey_eq_truncate]
  apply CString.ext
  refine List.take_of_length_le ?_
  rw [← CString.strlen, Numerals.strlen_ofString (plain_keyText localPort processId id.toInt)]
  exact hlength.trans (by decide)

/-- A key is neither empty nor too long, also where it would be truncated. -/
theorem strlen_generateKey (id : Int) :
    0 < (generateKey localPort processId id).strlen ∧
      (generateKey localPort processId id).strlen < maxKeySize := by
  have hbytes : (generateKey localPort processId id).bytes =
      (CString.ofString (keyText localPort processId id)).bytes.take (maxKeySize - 1) := rfl
  have hlength : (CString.ofString (keyText localPort processId id)).bytes.length =
      (keyText localPort processId id).toList.length :=
    Numerals.strlen_ofString (plain_keyText localPort processId id)
  have hpos : 0 < (keyText localPort processId id).toList.length := by
    rw [toList_keyText, List.length_append, List.length_cons]
    omega
  rw [CString.strlen, hbytes, List.length_take, hlength, maxKeySize]
  omega

/-- **Every key passes `ValidateKey`.** -/
theorem validateKey_generateKey (id : Int) :
    validateKey (generateKey localPort processId id) = true := by
  obtain ⟨hpos, hlt⟩ := strlen_generateKey localPort processId id
  exact (validateKey_iff _).mpr ⟨hpos, Nat.le_of_lt hlt⟩

/-- **Equal keys have equal numbers.** -/
theorem generateKey_injective {localPort localPort' : Int32} {processId processId' : UInt32}
    {id id' : Int32} (h : generateKey localPort processId id.toInt =
      generateKey localPort' processId' id'.toInt) :
    localPort = localPort' ∧ processId = processId' ∧ id = id' := by
  rw [generateKey_eq, generateKey_eq] at h
  have htext := Numerals.ofString_injective (plain_keyText _ _ _) (plain_keyText _ _ _) h
  obtain ⟨hport, hprocess, hid⟩ := keyText_injective htext
  exact ⟨hport, hprocess, Int32.toInt_inj.mp hid⟩

end Keys

/-! ## Keys on the wire -/

/-- The key that is read off a PUT. -/
def putKey? (message : Message) : Option CString :=
  if isPut message then
    match receivePut message.payload with
    | .accept (key, _) => some (CString.ofBuffer key)
    | _ => none
  else none

/-- The key that is read off a GET. -/
def getKey? (message : Message) : Option CString :=
  if isGet message then
    match receiveGet message.payload with
    | .accept key => some (CString.ofBuffer key)
    | _ => none
  else none

/-- A PUT that is sent carries its key. -/
theorem putKey?_sendPut {key value : CString} {message : Message}
    (h : sendPut key value = some message) :
    putKey? message = some key ∧ getKey? message = none := by
  unfold sendPut at h
  split at h
  · cases h
  · rename_i hvalid
    simp only [Bool.or_eq_true, Bool.not_eq_true', not_or, Bool.not_eq_false, validateKey_iff,
      validateValue_iff] at hvalid
    cases h
    have hreceive : receivePut (lengthPrefixed key.bytes ++ lengthPrefixed value.bytes) =
        .accept (key.bytes, value.bytes) :=
      (receivePut_eq_accept _ _ _).mpr ⟨hvalid.1.2, hvalid.2, List.prefix_rfl⟩
    constructor
    · have hput : isPut ⟨MessageType.put.value, lengthPrefixed key.bytes ++
        lengthPrefixed value.bytes⟩ = true := rfl
      rw [putKey?, if_pos hput, hreceive]
      simp only [CString.ofBuffer_bytes]
    · rfl

/-- A GET that is sent carries its key. -/
theorem getKey?_sendGet {key : CString} {message : Message} (h : sendGet key = some message) :
    putKey? message = none ∧ getKey? message = some key := by
  unfold sendGet at h
  split at h
  · cases h
  · rename_i hvalid
    simp only [Bool.not_eq_true', Bool.not_eq_false, validateKey_iff] at hvalid
    cases h
    have hreceive : receiveGet (lengthPrefixed key.bytes) = .accept key.bytes :=
      (receiveGet_eq_accept _ _).mpr ⟨hvalid.2, List.prefix_rfl⟩
    constructor
    · rfl
    · have hget : isGet ⟨MessageType.get.value, lengthPrefixed key.bytes⟩ = true := rfl
      rw [getKey?, if_pos hget, hreceive]
      simp only [CString.ofBuffer_bytes]

/-! ## The sender's keys -/

/-- The keys of the messages 1 to `n`. -/
def keysUpTo (c : Settings) (n : Nat) : List CString :=
  (List.range n).map fun i : Nat => generateKey c.localPort c.processId ((i : Int) + 1)

theorem keysUpTo_succ (c : Settings) (n : Nat) :
    keysUpTo c (n + 1) = keysUpTo c n ++ [generateKey c.localPort c.processId ((n : Int) + 1)] := by
  simp only [keysUpTo, List.range_succ, List.map_append, List.map_cons, List.map_nil]

theorem keysUpTo_toNat_add_one (c : Settings) {n : Int} (h : 0 ≤ n) :
    keysUpTo c (n + 1).toNat =
      keysUpTo c n.toNat ++ [generateKey c.localPort c.processId (n + 1)] := by
  have hsucc : (n + 1).toNat = n.toNat + 1 := by omega
  rw [hsucc, keysUpTo_succ, Int.toNat_of_nonneg h]

/-- A request that is prepared is the next one of its phase. -/
def Prepared (c : Settings) (s : State) : ClientRequest → Prop
  | .put key _ => key = generateKey c.localPort c.processId (s.messageCounter + 1) ∧
      s.verificationPhase = 0 ∧ s.messageCounter < c.messageCount
  | .get key => key = generateKey c.localPort c.processId (s.verificationCounter + 1) ∧
      s.verificationPhase = 1 ∧ s.verificationCounter < c.messageCount

/-- What the sender has sent and is about to send. -/
structure KeysSent (c : Settings) (s : State) : Prop where
  puts : s.sent.filterMap putKey? = keysUpTo c s.messageCounter.toNat
  gets : s.sent.filterMap getKey? = keysUpTo c s.verificationCounter.toNat
  counters : 0 ≤ s.messageCounter ∧ 0 ≤ s.verificationCounter
  bounds : s.messageCounter ≤ max c.messageCount 0 ∧ s.verificationCounter ≤ max c.messageCount 0
  phase : s.verificationPhase = 0 ∧ s.verificationCounter = 0 ∨
    s.verificationPhase = 1 ∧ c.messageCount ≤ s.messageCounter
  request : ∀ request, s.sender = .generated request ∨ s.sender = .counted request →
    Prepared c s request

/-- At the top of the loop and behind it there is no request. -/
theorem no_request {p : ClientRequest → Prop} {sender : SenderAt}
    (h : sender = .top ∨ sender = .ended) :
    ∀ request, sender = .generated request ∨ sender = .counted request → p request := by
  intro request hat
  rcases h with rfl | rfl
  · rcases hat with hat | hat <;> cases hat
  · rcases hat with hat | hat <;> cases hat

theorem keysSent_start (c : Settings) : KeysSent c start where
  puts := rfl
  gets := rfl
  counters := ⟨Int.le_refl 0, Int.le_refl 0⟩
  bounds := ⟨Int.le_max_right _ _, Int.le_max_right _ _⟩
  phase := Or.inl ⟨rfl, rfl⟩
  request := no_request (Or.inl rfl)

/-- Where only the place of the sender changes. -/
theorem KeysSent.of_sender {c : Settings} {s t : State} (h : KeysSent c s) (hsent : t.sent = s.sent)
    (hmessages : t.messageCounter = s.messageCounter)
    (hverified : t.verificationCounter = s.verificationCounter)
    (hphase : t.verificationPhase = s.verificationPhase)
    (hrequest : ∀ request, t.sender = .generated request ∨ t.sender = .counted request →
      Prepared c s request) : KeysSent c t where
  puts := by rw [hsent, hmessages, h.puts]
  gets := by rw [hsent, hverified, h.gets]
  counters := by rw [hmessages, hverified]; exact h.counters
  bounds := by rw [hmessages, hverified]; exact h.bounds
  phase := by rw [hphase, hverified, hmessages]; exact h.phase
  request := by
    intro request hat
    have hprepared := hrequest request hat
    cases request <;> simpa only [Prepared, hmessages, hverified, hphase] using hprepared

/-- **Up to the request**: the phase changes when all PUTs are sent, and a
key that is generated is never refused. -/
theorem keysSent_prepare {c : Settings} {s : State} (h : KeysSent c s) (rand : Nat → Nat) :
    KeysSent c (prepare c s rand) := by
  have hkey : ∀ id, 0 < (generateKey c.localPort c.processId id).strlen ∧
      (generateKey c.localPort c.processId id).strlen ≤ maxKeySize := fun id =>
    ⟨(strlen_generateKey _ _ id).1, Nat.le_of_lt (strlen_generateKey _ _ id).2⟩
  unfold prepare
  split
  · exact h.of_sender rfl rfl rfl rfl (no_request (Or.inl rfl))
  · split
    · rename_i hpause hdone
      have hverified : s.verificationCounter = 0 := by
        rcases h.phase with ⟨-, hverified⟩ | ⟨hphase, -⟩
        · exact hverified
        · omega
      exact ⟨h.puts, h.gets, h.counters, h.bounds, Or.inr ⟨rfl, hdone.2⟩, no_request (Or.inl rfl)⟩
    · split
      · exact h.of_sender rfl rfl rfl rfl (no_request (Or.inr rfl))
      · split
        · rename_i hphase
          simp only
          rw [if_pos (hkey _)]
          refine h.of_sender rfl rfl rfl rfl ?_
          rintro request (hat | hat)
          · cases hat
            exact ⟨rfl, hphase, by omega⟩
          · cases hat
        · rename_i hphase
          have hzero : s.verificationPhase = 0 := by
            rcases h.phase with ⟨hzero, -⟩ | ⟨hone, -⟩
            · exact hzero
            · exact absurd hone hphase
          simp only
          rw [if_neg (by have := hkey (s.messageCounter + 1); omega)]
          split
          · exact h.of_sender rfl rfl rfl rfl (no_request (Or.inl rfl))
          · refine h.of_sender rfl rfl rfl rfl ?_
            rintro request (hat | hat)
            · cases hat
              exact ⟨rfl, hzero, by omega⟩
            · cases hat

/-- **The send**: the next key of its phase goes behind the others. -/
theorem keysSent_sendRequest {c : Settings} {s : State} {request : ClientRequest}
    (h : KeysSent c s) (hat : s.sender = .counted request) (sendResult : Int) :
    KeysSent c (sendRequest s request sendResult) := by
  have hprepared := h.request request (Or.inr hat)
  unfold sendRequest
  split
  · exact h.of_sender rfl rfl rfl rfl (no_request (Or.inl rfl))
  · rename_i message hmessage
    split
    · cases request with
      | put key value =>
        obtain ⟨hput, hget⟩ := putKey?_sendPut hmessage
        obtain ⟨rfl, hphase, hlt⟩ := hprepared
        refine ⟨?_, ?_, ?_, ?_, ?_, no_request (Or.inl rfl)⟩
        · simp only [advance, List.filterMap_append, h.puts, List.filterMap_cons, hput,
            List.filterMap_nil]
          exact (keysUpTo_toNat_add_one c h.counters.1).symm
        · simp only [advance, List.filterMap_append, h.gets, List.filterMap_cons, hget,
            List.filterMap_nil, List.append_nil]
        · exact ⟨Int.le_add_one h.counters.1, h.counters.2⟩
        · exact ⟨(Int.add_one_le_of_lt hlt).trans (Int.le_max_left _ _), h.bounds.2⟩
        · rcases h.phase with hputs | ⟨hone, -⟩
          · exact Or.inl hputs
          · omega
      | get key =>
        obtain ⟨hput, hget⟩ := getKey?_sendGet hmessage
        obtain ⟨rfl, hphase, hlt⟩ := hprepared
        refine ⟨?_, ?_, ?_, ?_, ?_, no_request (Or.inl rfl)⟩
        · simp only [advance, List.filterMap_append, h.puts, List.filterMap_cons, hput,
            List.filterMap_nil, List.append_nil]
        · simp only [advance, List.filterMap_append, h.gets, List.filterMap_cons, hget,
            List.filterMap_nil]
          exact (keysUpTo_toNat_add_one c h.counters.2).symm
        · exact ⟨h.counters.1, Int.le_add_one h.counters.2⟩
        · exact ⟨h.bounds.1, (Int.add_one_le_of_lt hlt).trans (Int.le_max_left _ _)⟩
        · rcases h.phase with ⟨hzero, -⟩ | hgets
          · omega
          · exact Or.inr hgets
    · split
      · exact h.of_sender rfl rfl rfl rfl (no_request (Or.inr rfl))
      · exact h.of_sender rfl rfl rfl rfl (no_request (Or.inl rfl))

/-- What the receiver leaves alone. -/
theorem receiveMessage_leaves (s : State) (message : Message) :
    ∃ testData receiver, receiveMessage s message =
      { s with testData := testData, receiver := receiver } := by
  unfold receiveMessage
  split
  all_goals exact ⟨_, _, rfl⟩

/-- **Every step** keeps the keys in order. -/
theorem keysSent_step {c : Settings} (s : State) (l : Label) (t : State) (h : KeysSent c s)
    (hstep : step c s l = some t) : KeysSent c t := by
  cases l with
  | testFinish =>
    simp only [step] at hstep
    split at hstep
    · cases hstep
      refine h.of_sender rfl rfl rfl rfl ?_
      cases s.finishFlag
      all_goals
        rintro request (hat | hat) <;> cases hat
    · cases hstep
  | prepare rand =>
    simp only [step] at hstep
    split at hstep
    · cases hstep
      exact keysSent_prepare h rand
    · cases hstep
  | count =>
    simp only [step] at hstep
    split at hstep
    · rename_i request hgenerated
      cases hstep
      refine h.of_sender rfl rfl rfl rfl ?_
      rintro request' (hat | hat)
      · cases hat
      · cases hat
        exact h.request request (Or.inl hgenerated)
    · cases hstep
  | send sendResult =>
    simp only [step] at hstep
    split at hstep
    · rename_i request hcounted
      cases hstep
      exact keysSent_sendRequest h hcounted sendResult
    · cases hstep
  | answer i reply =>
    simp only [step] at hstep
    split at hstep
    · split at hstep
      · cases hstep
        exact h.of_sender rfl rfl rfl rfl h.request
      · cases hstep
    · cases hstep
  | receive =>
    simp only [step] at hstep
    split at hstep
    · rename_i message replies hreceiving hreplies
      cases hstep
      obtain ⟨testData, receiver, hreceive⟩ := receiveMessage_leaves s message
      rw [hreceive]
      exact h.of_sender rfl rfl rfl rfl h.request
    · cases hstep
  | testExit | receiveFailed | pause | resume | setFinishSignal =>
    simp only [step] at hstep
    split at hstep
    all_goals cases hstep
    all_goals exact h.of_sender rfl rfl rfl rfl h.request

/-- **Every run**: the PUTs carry the keys of the messages in order, and so
do the GETs. -/
theorem keysSent_run {c : Settings} {ls : List Label} {s : State}
    (h : exec (step c) start ls = some s) : KeysSent c s :=
  exec_invariant keysSent_step (keysSent_start c) h

/-! ## Clients -/

/-- A client with any run of its threads. -/
structure ClientRun where
  messageCount : Int32
  localPort : Int32
  processId : UInt32
  labels : List Label
  state : State
  run : exec (step ⟨messageCount.toInt, localPort, processId⟩) start labels = some state

namespace ClientRun

/-- The keys of the PUTs a client has sent. -/
def putKeys (r : ClientRun) : List CString := r.state.sent.filterMap putKey?

/-- The keys of the GETs a client has sent. -/
def getKeys (r : ClientRun) : List CString := r.state.sent.filterMap getKey?

/-- The numbers of the messages are `int`s. -/
theorem putKeys_getElem? (r : ClientRun) {i : Nat} {key : CString}
    (h : r.putKeys[i]? = some key) :
    ∃ id : Int32, id.toInt = (i : Int) + 1 ∧
      key = generateKey r.localPort r.processId id.toInt := by
  have hsent := keysSent_run r.run
  have hkeys : r.putKeys = keysUpTo _ r.state.messageCounter.toNat := hsent.puts
  rw [hkeys, keysUpTo, List.getElem?_map, Option.map_eq_some_iff] at h
  obtain ⟨j, hj, rfl⟩ := h
  obtain ⟨hlt, rfl⟩ := List.getElem?_eq_some_iff.mp hj
  rw [List.length_range] at hlt
  rw [List.getElem_range]
  have hbound := hsent.bounds.1
  have hcount := r.messageCount.toInt_lt
  have hid : (Int32.ofInt ((i : Int) + 1)).toInt = (i : Int) + 1 :=
    Int32.toInt_ofInt_of_le (by omega) (by simp only at hbound; omega)
  exact ⟨Int32.ofInt ((i : Int) + 1), hid, by rw [hid]⟩

/-- **A key that two PUTs carry** is of one client and one message. -/
theorem putKeys_unique {r r' : ClientRun} {i i' : Nat} {key : CString}
    (h : r.putKeys[i]? = some key) (h' : r'.putKeys[i']? = some key) :
    r.localPort = r'.localPort ∧ r.processId = r'.processId ∧ i = i' := by
  obtain ⟨id, hid, hkey⟩ := r.putKeys_getElem? h
  obtain ⟨id', hid', hkey'⟩ := r'.putKeys_getElem? h'
  obtain ⟨hport, hprocess, rfl⟩ := generateKey_injective (hkey.symm.trans hkey')
  exact ⟨hport, hprocess, by omega⟩

/-- A client puts no key twice. -/
theorem nodup_putKeys (r : ClientRun) : r.putKeys.Nodup := by
  refine List.nodup_iff_injective_getElem.mpr fun i j hij => Fin.ext ?_
  exact (putKeys_unique (List.getElem?_eq_getElem i.isLt)
    ((List.getElem?_eq_getElem j.isLt).trans (congrArg some hij.symm))).2.2

/-- Clients that differ in the port or the process put no key twice. -/
theorem nodup_flatMap_putKeys {runs : List ClientRun}
    (h : (runs.map fun r => (r.localPort, r.processId)).Nodup) :
    (runs.flatMap putKeys).Nodup := by
  refine List.nodup_flatMap.mpr ⟨fun r _ => r.nodup_putKeys, ?_⟩
  refine (List.pairwise_map.mp h).imp ?_
  intro r r' hne key hkey hkey'
  obtain ⟨i, hi⟩ := List.mem_iff_getElem?.mp hkey
  obtain ⟨i', hi'⟩ := List.mem_iff_getElem?.mp hkey'
  obtain ⟨hport, hprocess, -⟩ := putKeys_unique hi hi'
  exact hne (Prod.ext hport hprocess)

/-- The GETs ask for the keys of the PUTs, in their order. -/
theorem getKeys_prefix (r : ClientRun) : r.getKeys <+: r.putKeys := by
  have hsent := keysSent_run r.run
  have hputs : r.putKeys = keysUpTo _ r.state.messageCounter.toNat := hsent.puts
  have hgets : r.getKeys = keysUpTo _ r.state.verificationCounter.toNat := hsent.gets
  have hle : r.state.verificationCounter ≤ r.state.messageCounter := by
    have hcounters := hsent.counters
    have hbounds := hsent.bounds
    rcases hsent.phase with ⟨-, hzero⟩ | ⟨-, hdone⟩ <;> omega
  rw [hputs, hgets, keysUpTo, keysUpTo]
  refine List.IsPrefix.map _ (List.prefix_iff_eq_take.mpr ?_)
  rw [List.length_range, List.take_range, min_eq_left (Int.toNat_le_toNat hle)]

end ClientRun

/-- **Client keys never collide.** For all ports, process ids and numbers,
a key passes `ValidateKey` and is the whole text that is formatted; equal
keys have equal ports, process ids and numbers. So the PUT/GET verification
writes once: a key that is put by two clients, or by one at two places, is
put by one client at one place; clients that differ in the port or the
process put no key twice; and a client asks for what it put. -/
theorem keys_never_collide :
    (∀ (localPort : Int32) (processId : UInt32) (id : Int32),
      validateKey (generateKey localPort processId id.toInt) = true ∧
      (keyText localPort processId id.toInt).toList.length < maxKeySize ∧
      (generateKey localPort processId id.toInt).bytes =
        (keyText localPort processId id.toInt).toList.map fun c => UInt8.ofNat c.toNat) ∧
    (∀ (localPort localPort' : Int32) (processId processId' : UInt32) (id id' : Int32),
      generateKey localPort processId id.toInt = generateKey localPort' processId' id'.toInt →
      localPort = localPort' ∧ processId = processId' ∧ id = id') ∧
    (∀ (r r' : ClientRun) (i i' : Nat) (key : CString),
      r.putKeys[i]? = some key → r'.putKeys[i']? = some key →
      r.localPort = r'.localPort ∧ r.processId = r'.processId ∧ i = i') ∧
    (∀ runs : List ClientRun, (runs.map fun r => (r.localPort, r.processId)).Nodup →
      (runs.flatMap ClientRun.putKeys).Nodup) ∧
    ∀ r : ClientRun, r.getKeys <+: r.putKeys := by
  refine ⟨fun localPort processId id => ⟨validateKey_generateKey _ _ _, ?_, ?_⟩,
    fun _ _ _ _ _ _ h => generateKey_injective h, fun _ _ _ _ _ h h' =>
      ClientRun.putKeys_unique h h', fun _ h => ClientRun.nodup_flatMap_putKeys h,
    ClientRun.getKeys_prefix⟩
  · exact (length_keyText_le localPort processId id).trans_lt (by decide)
  · rw [generateKey_eq]
    exact Numerals.bytes_ofString (plain_keyText localPort processId id.toInt)

/-- A client with one message that has run by `labels`. -/
def ClientRun.ofLabels (localPort : Int32) (labels : List Label)
    (h : (exec (step ⟨(1 : Int32).toInt, localPort, 7⟩) start labels).isSome) : ClientRun :=
  ⟨1, localPort, 7, labels, Option.get _ h, (Option.some_get h).symm⟩

/-- The first PUT. -/
def firstPut : List Label := [.testFinish, .prepare fun _ => 0, .count, .send 20]

/-- A client behind its first PUT, the same client on its way to the GET,
and one with another port. -/
def oneClient : ClientRun := .ofLabels 50000 firstPut (by decide +kernel)

def oneClientLater : ClientRun :=
  .ofLabels 50000 (firstPut ++ [.testFinish, .prepare fun _ => 0]) (by decide +kernel)

def otherClient : ClientRun := .ofLabels 50001 firstPut (by decide +kernel)

/-- The two clients put different keys, and the one still has its own. -/
theorem keys_never_collide_two :
    ([oneClient, otherClient].flatMap ClientRun.putKeys).Nodup ∧
      [oneClient, otherClient].flatMap ClientRun.putKeys =
        [generateKey 50000 7 1, generateKey 50001 7 1] ∧
      (oneClient.putKeys[0]? = oneClientLater.putKeys[0]? ∧
        oneClient.localPort = oneClientLater.localPort ∧
        oneClient.processId = oneClientLater.processId) ∧
      generateKey 50000 7 1 ≠ generateKey 50001 7 1 := by
  have hput : oneClient.putKeys[0]? = some (generateKey 50000 7 1) := by decide +kernel
  have hlater : oneClientLater.putKeys[0]? = some (generateKey 50000 7 1) := by decide +kernel
  obtain ⟨hport, hprocess, -⟩ :=
    keys_never_collide.2.2.1 oneClient oneClientLater 0 0 _ hput hlater
  refine ⟨keys_never_collide.2.2.2.1 [oneClient, otherClient] (by decide +kernel),
    by decide +kernel, ⟨hput.trans hlater.symm, hport, hprocess⟩, fun hsame => ?_⟩
  exact absurd (keys_never_collide.2.1 50000 50001 7 7 1 1 hsame).1 (by decide)

end LoadBalancing.Client
