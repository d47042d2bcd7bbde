import Kaiion.Request.Identity

/-! The identity of a turn: its thread and its turn id are joined by a NUL byte, which either may
contain. -/
namespace Kaiion
open Durable Foundation

/-- The separator of the two ids. -/
def nul : Char := Char.ofNat 0

/-- One pair of ids is the other one cut at a later NUL. -/
def TurnShifted (thread turn thread' turn' : String) : Prop :=
  Shifted nul thread.toList turn.toList thread'.toList turn'.toList

/-- A client's metadata with a non-blank `thread_id` and a `turn_id`. -/
structure NamesTurn (metadata : Members) (thread turn : String) : Prop where
  thread : nonBlank (metadata.get "thread_id") = some thread
  turn : (metadata.get "turn_id").bind Value.asStr = some turn

variable {crates : Crates} {metadata metadata' : Members} {thread turn thread' turn' : String}

theorem utf8_append (a b : String) : utf8 (a ++ b) = utf8 a ++ utf8 b := by
  unfold utf8
  simp [String.toByteArray_append]

/-- What is hashed is the text of the two ids with the separator between them. -/
theorem utf8_join (thread turn : String) :
    utf8 thread ++ [0] ++ utf8 turn = utf8 (String.ofList (thread.toList ++ nul :: turn.toList)) := by
  have hnul : utf8 (String.ofList [nul]) = [0] := rfl
  have hjoin : String.ofList (thread.toList ++ nul :: turn.toList) = thread ++ String.ofList [nul] ++ turn := by
    rw [← List.singleton_append, String.ofList_append, String.ofList_append, String.ofList_toList,
      String.ofList_toList, String.append_assoc]
  rw [hjoin, utf8_append, utf8_append, hnul]

theorem utf8_join_inj : utf8 thread ++ [0] ++ utf8 turn = utf8 thread' ++ [0] ++ utf8 turn' ↔
    thread.toList ++ nul :: turn.toList = thread'.toList ++ nul :: turn'.toList := by
  rw [utf8_join, utf8_join]
  constructor
  · intro h
    exact String.ofList_injective (utf8_injective h)
  · intro h
    rw [h]

theorem NamesTurn.sessionKey (h : NamesTurn metadata thread turn) :
    extractSessionKey crates (some (.object metadata)) =
      some (crates.hexDigest (utf8 thread ++ [0] ++ utf8 turn)) := by
  unfold extractSessionKey
  simp [Value.members?, h.thread, h.turn]

/-- The keys of two turns are equal for equal ids and for shifted ones. -/
theorem NamesTurn.sessionKey_eq_iff (hfree : crates.CollisionFree) (h : NamesTurn metadata thread turn)
    (h' : NamesTurn metadata' thread' turn') :
    extractSessionKey crates (some (.object metadata)) = extractSessionKey crates (some (.object metadata')) ↔
      (thread = thread' ∧ turn = turn') ∨ TurnShifted thread turn thread' turn' ∨
        TurnShifted thread' turn' thread turn := by
  have hids : (thread.toList = thread'.toList ∧ turn.toList = turn'.toList) ↔ thread = thread' ∧ turn = turn' := by
    rw [String.toList_inj, String.toList_inj]
  rw [h.sessionKey, h'.sessionKey, ← hids]
  unfold TurnShifted
  rw [← join_eq_iff, ← utf8_join_inj]
  constructor
  · intro hkeys
    exact hfree.hexDigest_inj (Option.some.inj hkeys)
  · intro hbytes
    rw [hbytes]

/-- Without a NUL in either thread id the two ids are kept apart. -/
theorem not_turnShifted (h : nul ∉ thread'.toList) : ¬ TurnShifted thread turn thread' turn' :=
  fun hshifted => h hshifted.mem

/-- Without a session header a request's session key is the one of its turn. -/
theorem Reading.Of.sessionKey_of_turn {body : Value} {providerNamespace : String} {headers : HeaderMap}
    {r : Reading} (h : r.Of crates body providerNamespace headers) (hsession : headers.get sessionHeader = none)
    (hmetadata : body.get "client_metadata" = some (.object metadata)) (hturn : NamesTurn metadata thread turn) :
    extractSessionKey crates (some (.object metadata)) = some r.sessionKey := by
  have hnone : r.session = none := by
    have hread := h.session
    unfold identityHeader optionalHeader at hread
    rw [hsession] at hread
    exact (Except.ok.inj hread).symm
  have hkey := h.sessionKey
  rw [hnone, hmetadata] at hkey
  unfold sessionKeyOf at hkey
  rw [hturn.sessionKey] at hkey ⊢
  exact hkey

/-- A durable request of a client that names its turn in its metadata, without a session header. -/
def TurnRequest (crates : Crates) (metadata : Members) (request : NormalizedRequest) : Prop :=
  ∃ body providerNamespace headers, body.get "client_metadata" = some (.object metadata) ∧
    headers.get sessionHeader = none ∧ FitsMemory crates body providerNamespace headers ∧
    fromHeaders crates body providerNamespace headers = .ok request

private theorem sessionKey_of_shared (hfree : crates.CollisionFree) (h : NamesTurn metadata thread turn)
    (h' : NamesTurn metadata' thread' turn') {a b : NormalizedRequest} {hash : String}
    (ha : TurnRequest crates metadata a) (hb : TurnRequest crates metadata' b)
    (hasha : a.idempotencyHash = some hash) (hashb : b.idempotencyHash = some hash) :
    extractSessionKey crates (some (.object metadata)) = extractSessionKey crates (some (.object metadata')) := by
  obtain ⟨body, providerNamespace, headers, hmetadata, hsession, hfits, ha⟩ := ha
  obtain ⟨body', providerNamespace', headers', hmetadata', hsession', hfits', hb⟩ := hb
  obtain ⟨r, hr, rfl⟩ := fromHeaders_ok_iff.mp ha
  obtain ⟨s, hs, rfl⟩ := fromHeaders_ok_iff.mp hb
  rw [hr.sessionKey_of_turn hsession hmetadata h, hs.sessionKey_of_turn hsession' hmetadata' h']
  exact congrArg some (idempotency_scope_inj hfree hr hs hfits hfits' hasha hashb).2.1

/-- Two turns are told apart exactly when neither pair of ids is the other one cut at a later NUL; then
requests of the two turns never share the scope of an idempotency key either. -/
theorem turns_told_apart_iff (hfree : crates.CollisionFree) (h : NamesTurn metadata thread turn)
    (h' : NamesTurn metadata' thread' turn') :
    ((extractSessionKey crates (some (.object metadata)) = extractSessionKey crates (some (.object metadata')) →
        thread = thread' ∧ turn = turn') ↔
      ¬ TurnShifted thread turn thread' turn' ∧ ¬ TurnShifted thread' turn' thread turn) ∧
    (¬ TurnShifted thread turn thread' turn' → ¬ TurnShifted thread' turn' thread turn →
      ∀ a b hash, TurnRequest crates metadata a → TurnRequest crates metadata' b →
        a.idempotencyHash = some hash → b.idempotencyHash = some hash → thread = thread' ∧ turn = turn') := by
  have hiff := h.sessionKey_eq_iff hfree h'
  have apart : ¬ TurnShifted thread turn thread' turn' → ¬ TurnShifted thread' turn' thread turn →
      extractSessionKey crates (some (.object metadata)) = extractSessionKey crates (some (.object metadata')) →
      thread = thread' ∧ turn = turn' := by
    intro hright hleft hkeys
    exact (hiff.mp hkeys).resolve_right (not_or.mpr ⟨hright, hleft⟩)
  refine ⟨⟨fun hinj => ⟨fun hshifted => ?_, fun hshifted => ?_⟩, fun hapart => apart hapart.1 hapart.2⟩, ?_⟩
  · exact hshifted.ne (congrArg String.toList (hinj (hiff.mpr (.inr (.inl hshifted)))).1)
  · exact hshifted.ne (congrArg String.toList (hinj (hiff.mpr (.inr (.inr hshifted)))).1.symm)
  · intro hright hleft a b hash ha hb hasha hashb
    exact apart hright hleft (sessionKey_of_shared hfree h h' ha hb hasha hashb)

section Witness

private def turnOf (thread turn : String) : Members := [("thread_id", .string thread), ("turn_id", .string turn)]

/-- Two turns of one thread have different session keys. -/
theorem turns_told_apart_of_one_thread : ¬ extractSessionKey sampleCrates (some (.object (turnOf "thread" "turn-1"))) =
    extractSessionKey sampleCrates (some (.object (turnOf "thread" "turn-2"))) := by
  have h : NamesTurn (turnOf "thread" "turn-1") "thread" "turn-1" := ⟨by decide, by decide⟩
  have h' : NamesTurn (turnOf "thread" "turn-2") "thread" "turn-2" := ⟨by decide, by decide⟩
  intro hkeys
  have hsame := (turns_told_apart_iff sampleCrates_collisionFree h h').1.mpr
    ⟨not_turnShifted (by decide), not_turnShifted (by decide)⟩ hkeys
  exact absurd hsame.2 (by decide)

private def keyedTurn : HeaderMap := [("authorization", ⟨utf8 "Bearer a"⟩), ("idempotency-key", ⟨utf8 "k1"⟩)]

private def turnBody (thread turn : String) : Value :=
  .object [("client_metadata", .object (turnOf thread turn)), ("input", .string "hi"), ("model", .string "gpt-5")]

private noncomputable def collided : String := sampleCrates.hexDigest (utf8 "a\x00b\x00c")

private noncomputable def turnReading (thread turn : String) : Reading :=
  ⟨[("client_metadata", .object (turnOf thread turn)), ("input", .string "hi"), ("model", .string "gpt-5")],
    "gpt-5", none, some "k1", collided, "https://api.openai.com/v1"⟩

private theorem turnReading_of {thread turn : String}
    (hkey : extractSessionKey sampleCrates (some (.object (turnOf thread turn))) = some collided) :
    (turnReading thread turn).Of sampleCrates (turnBody thread turn) "https://api.openai.com/v1" keyedTurn :=
  { object := rfl
    requested := by rfl
    model := (by decide : (modelAlias "gpt-5").1 ≠ "")
    fields := by rfl
    session := (by decide : identityHeader keyedTurn sessionHeader = .ok none)
    idempotency := (by decide : identityHeader keyedTurn idempotencyHeader = .ok (some "k1"))
    sessionKey := (by unfold sessionKeyOf; rw [hkey]; rfl :
      sessionKeyOf sampleCrates none (some "k1") (some (.object (turnOf thread turn))) = some collided)
    provider := rfl }

private theorem turn_request {thread turn : String}
    (hkey : extractSessionKey sampleCrates (some (.object (turnOf thread turn))) = some collided)
    (hencoded : FitsLength (sampleCrates.json.print (identityBody (turnBody thread turn)))) :
    TurnRequest sampleCrates (turnOf thread turn) ((turnReading thread turn).request sampleCrates) := by
  have hof := turnReading_of hkey
  refine ⟨turnBody thread turn, "https://api.openai.com/v1", keyedTurn, rfl, by decide, ⟨?_, ?_, hencoded⟩,
    fromHeaders_ok_iff.mpr ⟨_, hof, rfl⟩⟩
  · intro provider hprovider
    rw [hof.provider] at hprovider
    obtain rfl := Except.ok.inj hprovider
    exact (by decide : FitsLength "https://api.openai.com/v1")
  · intro key hsession
    rw [hof.durableSessionKey_eq] at hsession
    obtain rfl := Option.some.inj (Except.ok.inj hsession)
    exact (by decide +kernel : FitsLength collided)

/-- The thread "a, NUL, b" in turn "c" and the thread "a" in turn "b, NUL, c" are one session, and one
idempotency key clashes with itself across the two. -/
theorem turns_collide : sampleCrates.CollisionFree ∧ NamesTurn (turnOf "a\x00b" "c") "a\x00b" "c" ∧
    NamesTurn (turnOf "a" "b\x00c") "a" "b\x00c" ∧
    extractSessionKey sampleCrates (some (.object (turnOf "a\x00b" "c"))) =
      extractSessionKey sampleCrates (some (.object (turnOf "a" "b\x00c"))) ∧ "a\x00b" ≠ "a" ∧
    ∃ a b, TurnRequest sampleCrates (turnOf "a\x00b" "c") a ∧ TurnRequest sampleCrates (turnOf "a" "b\x00c") b ∧
      a.idempotencyHash.isSome ∧ a.idempotencyHash = b.idempotencyHash := by
  have hleft : extractSessionKey sampleCrates (some (.object (turnOf "a\x00b" "c"))) = some collided := rfl
  have hright : extractSessionKey sampleCrates (some (.object (turnOf "a" "b\x00c"))) = some collided := rfl
  refine ⟨sampleCrates_collisionFree, ⟨by decide, by decide⟩, ⟨by decide, by decide⟩, hleft.trans hright.symm,
    by decide, _, _, turn_request hleft (by decide +kernel), turn_request hright (by decide +kernel), ?_, ?_⟩
  · rfl
  · rw [Reading.idempotencyHash_map, Reading.idempotencyHash_map]
    rfl

end Witness
end Kaiion
