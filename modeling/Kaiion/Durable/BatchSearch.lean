import Kaiion.Durable.FindBatch
import Mathlib.Data.List.Infix

/-! What the search of the batch list finds, and when it ends. -/
namespace Kaiion.Durable
open Foundation StateTransition Relation

variable {p : Payloads} {id : JobId} {batches rest : List BatchObject}

/-- The batches strictly behind a cursor. -/
def behind (batches : List BatchObject) : Option String → List BatchObject
  | none => batches
  | some last => (batches.dropWhile (fun batch => batch.id ≠ last)).tail

/-- A page that starts what is left of the list. It has more exactly when it is not all of that, and
is then left by the id of its last batch. -/
structure BatchList.PageOf (page : BatchList) (rest : List BatchObject) : Prop where
  part : page.data <+: rest
  more : page.hasMore = true ↔ page.data ≠ rest
  cursor : page.hasMore = true → ∃ last, page.data.getLast? = some last ∧ page.lastId = some last.id

/-- The provider serves the list, in pages of any sizes, from whatever cursor of its own it is asked for. -/
def ServesInPages (p : Payloads) (answers : Nat → Option String → HttpReply) (batches : List BatchObject) : Prop :=
  ∀ turn after, (∀ last, after = some last → ∃ batch ∈ batches, batch.id = last) →
    ∃ page, p.parseJson (answers turn after) = .ok page ∧ page.PageOf (behind batches after)

private theorem behind_split {read more : List BatchObject} {last : BatchObject}
    (hdistinct : ((read ++ last :: more).map BatchObject.id).Nodup) :
    behind (read ++ last :: more) (some last.id) = more := by
  rw [List.map_append, List.map_cons] at hdistinct
  have hnot : ∀ batch ∈ read, batch.id ≠ last.id := fun batch hbatch heq =>
    (List.nodup_append.mp hdistinct).2.2 _ (List.mem_map_of_mem hbatch) last.id List.mem_cons_self heq
  unfold behind
  dsimp only
  rw [List.dropWhile_append_of_pos fun batch hbatch => decide_eq_true (hnot batch hbatch),
    List.dropWhile_cons_of_neg (by simp)]
  rfl

/-- A round either has the result, or finds nothing and goes on behind the page's last batch. -/
private theorem page_round (id : JobId) {page : BatchList} {after : Option String} (hpage : page.PageOf rest)
    (hnamed : ∀ batch ∈ rest, batch.id ≠ "") (hfresh : ∀ batch ∈ rest, after ≠ some batch.id) :
    findRound id after (.ok page) = .done (.ok (rest.find? (BatchObject.carries id))) ∨
    ∃ front batch more, rest = front ++ batch :: more ∧
      rest.find? (BatchObject.carries id) = more.find? (BatchObject.carries id) ∧
      findRound id after (.ok page) = .again batch.id := by
  obtain ⟨more, hmore⟩ := hpage.part
  have hfind : rest.find? (BatchObject.carries id) =
      (page.data.find? (BatchObject.carries id)).or (more.find? (BatchObject.carries id)) := by
    rw [← hmore, List.find?_append]
  cases hhere : page.data.find? (BatchObject.carries id) with
  | some batch =>
    rw [hfind, hhere, Option.some_or]
    refine .inl ?_
    unfold findRound
    dsimp only
    rw [hhere]
  | none =>
    rw [hhere, Option.none_or] at hfind
    cases hgo : page.hasMore with
    | true =>
      obtain ⟨batch, hgetLast, hlastId⟩ := hpage.cursor hgo
      obtain ⟨front, hfront⟩ := List.getLast?_eq_some_iff.mp hgetLast
      have hsplit : rest = front ++ batch :: more := by
        rw [← hmore, hfront, List.append_assoc, List.singleton_append]
      have hmem : batch ∈ rest := hpage.part.subset (List.mem_of_getLast? hgetLast)
      exact .inr ⟨front, batch, more, hsplit, hfind,
        findRound_again.mpr ⟨page, rfl, hhere, hgo, hlastId, hnamed batch hmem, hfresh batch hmem⟩⟩
    | false =>
      -- Nothing follows, so the page is all that was left.
      have hall : page.data = rest := by
        by_contra hne
        rw [hpage.more.mpr hne] at hgo
        cases hgo
      refine .inl ?_
      cases hround : findRound id after (.ok page) with
      | done result =>
        rcases findRound_done hround with ⟨error, herror, -⟩ | ⟨batches, hbatches, hresult⟩
        · cases herror
        · cases hbatches
          rw [hresult, hall]
      | again last =>
        obtain ⟨batches, hbatches, hgoes⟩ := findRound_again.mp hround
        cases hbatches
        rw [hgoes.more] at hgo
        cases hgo

/-- From any cursor on, the search finds the first batch of the job in what is left. -/
private theorem search_rest {answers : Nat → Option String → HttpReply} {after : Option String}
    {read : List BatchObject} (hserves : ServesInPages p answers (read ++ rest))
    (hdistinct : ((read ++ rest).map BatchObject.id).Nodup) (hnamed : ∀ batch ∈ read ++ rest, batch.id ≠ "")
    (hbehind : behind (read ++ rest) after = rest)
    (hcursor : ∀ last, after = some last → ∃ batch ∈ read, batch.id = last) :
    searchBatches p id answers (rest.length + 1) after = some (.ok (rest.find? (BatchObject.carries id))) := by
  induction hlength : rest.length using Nat.strong_induction_on generalizing answers after read rest with
  | _ length ih =>
    obtain ⟨page, hparse, hpage⟩ := hserves 0 after fun last hlast => by
      obtain ⟨batch, hbatch, hid⟩ := hcursor last hlast
      exact ⟨batch, List.mem_append_left _ hbatch, hid⟩
    rw [hbehind] at hpage
    have hfresh : ∀ batch ∈ rest, after ≠ some batch.id := by
      intro batch hbatch heq
      obtain ⟨old, hold, hid⟩ := hcursor batch.id heq
      rw [List.map_append] at hdistinct
      exact (List.nodup_append.mp hdistinct).2.2 _ (List.mem_map_of_mem hold) _ (List.mem_map_of_mem hbatch) hid
    rcases page_round id hpage (fun batch hbatch => hnamed batch (List.mem_append_right _ hbatch)) hfresh with
      hround | ⟨front, batch, more, hsplit, hfind, hround⟩
    · exact searchBatches_done (hparse ▸ hround)
    · -- What was read now ends with the batch that is the new cursor.
      have hread : read ++ rest = (read ++ front ++ [batch]) ++ more := by
        rw [hsplit]
        simp only [List.append_assoc, List.singleton_append]
      have hshort : more.length < length := by
        rw [← hlength, hsplit, List.length_append, List.length_cons]
        omega
      have hnext : behind ((read ++ front ++ [batch]) ++ more) (some batch.id) = more := by
        rw [List.append_assoc, List.singleton_append]
        refine behind_split ?_
        rw [hread, List.append_assoc, List.singleton_append] at hdistinct
        exact hdistinct
      rw [hread] at hserves hdistinct hnamed
      have hrest : searchBatches p id (fun turn => answers (turn + 1)) (more.length + 1) (some batch.id) =
          some (.ok (more.find? (BatchObject.carries id))) := by
        refine ih more.length hshort (fun turn => hserves (turn + 1)) hdistinct hnamed hnext ?_ rfl
        exact fun last hlast => ⟨batch, List.mem_append_right _ List.mem_cons_self, Option.some.inj hlast⟩
      rw [searchBatches_again (hparse ▸ hround), hfind]
      exact searchBatches_mono hrest (by omega)

/-- Over a list served in pages, however many, the search ends with the first batch of the list that
carries the job's id, and with none only if no batch does. -/
theorem search_finds_first {answers : Nat → Option String → HttpReply} (hserves : ServesInPages p answers batches)
    (hdistinct : (batches.map BatchObject.id).Nodup) (hnamed : ∀ batch ∈ batches, batch.id ≠ "") :
    (∃ requests, searchBatches p id answers requests none = some (.ok (batches.find? (BatchObject.carries id)))) ∧
    ∀ requests result, searchBatches p id answers requests none = some result →
      result = .ok (batches.find? (BatchObject.carries id)) ∧
      (result = .ok none → ∀ batch ∈ batches, batch.carries id = false) := by
  have hsearch : searchBatches p id answers (batches.length + 1) none =
      some (.ok (batches.find? (BatchObject.carries id))) :=
    search_rest (show ServesInPages p answers ([] ++ batches) from hserves) hdistinct hnamed rfl
      fun _ hnone => (by cases hnone)
  refine ⟨⟨_, hsearch⟩, fun requests result h => ?_⟩
  cases searchBatches_unique h hsearch
  refine ⟨rfl, fun hnone batch hbatch => ?_⟩
  exact Bool.eq_false_iff.mpr (List.find?_eq_none.mp (Except.ok.inj hnone) batch hbatch)

section Witness

private def decoy : BatchObject :=
  { id := "b1", status := "failed", outputFileId := none, errorFileId := none, metadata := none }

private def wanted : BatchObject :=
  { id := "b2", status := "validating", outputFileId := none, errorFileId := none
    metadata := some (.object [("kaiion_job_id", .string "job")]) }

private def firstPage : String :=
  "\x7b\"data\":[\x7b\"id\":\"b1\",\"status\":\"failed\"\x7d],\"has_more\":true,\"last_id\":\"b1\"\x7d"

private def secondPage : String :=
  "\x7b\"data\":[\x7b\"id\":\"b2\",\"status\":\"validating\",\"metadata\":\x7b\"kaiion_job_id\":\"job\"\x7d\x7d],\"last_id\":\"b2\"\x7d"

private def twoPages : Payloads :=
  { decode := fun body =>
      if body.data = firstPage.toUTF8.data then .ok ⟨[decoy], true, some "b1"⟩
      else if body.data = secondPage.toUTF8.data then .ok ⟨[wanted], false, some "b2"⟩
      else .ok ⟨[], false, none⟩
    lossy := fun _ => "" }

private def serveTwo (_ : Nat) : Option String → HttpReply
  | none => .answered ⟨200, "200 OK"⟩ firstPage.toUTF8
  | some last =>
    if last = "b1" then .answered ⟨200, "200 OK"⟩ secondPage.toUTF8
    else .answered ⟨200, "200 OK"⟩ "\x7b\"data\":[]\x7d".toUTF8

/-- The last page. -/
private theorem pageOf_all (lastId : Option String) : (⟨rest, false, lastId⟩ : BatchList).PageOf rest where
  part := List.prefix_rfl
  more := ⟨fun hmore => absurd hmore Bool.false_ne_true, fun hne => absurd rfl hne⟩
  cursor hmore := absurd hmore Bool.false_ne_true

private theorem twoPages_first (turn : Nat) :
    twoPages.parseJson (serveTwo turn none) = .ok ⟨[decoy], true, some "b1"⟩ := by rfl

private theorem twoPages_second (turn : Nat) :
    twoPages.parseJson (serveTwo turn (some "b1")) = .ok ⟨[wanted], false, some "b2"⟩ := by rfl

private theorem serveTwo_serves : ServesInPages twoPages serveTwo [decoy, wanted] := by
  intro turn after hafter
  cases after with
  | none =>
    refine ⟨⟨[decoy], true, some "b1"⟩, twoPages_first turn, ⟨[wanted], rfl⟩,
      ⟨fun _ heq => ?_, fun _ => rfl⟩, fun _ => ⟨decoy, rfl, rfl⟩⟩
    cases heq
  | some last =>
    obtain ⟨batch, hbatch, rfl⟩ := hafter last rfl
    rcases List.mem_cons.mp hbatch with rfl | hbatch
    · exact ⟨⟨[wanted], false, some "b2"⟩, twoPages_second turn, pageOf_all _⟩
    · cases List.mem_singleton.mp hbatch
      exact ⟨⟨[], false, none⟩, rfl, pageOf_all _⟩

/-- The job's batch is on the second page. -/
theorem search_finds_second :
    ∃ requests, searchBatches twoPages ⟨"job"⟩ serveTwo requests none = some (.ok (some wanted)) :=
  (search_finds_first serveTwo_serves (by decide) (by decide)).1

end Witness

/-- The page behind one cursor sends the search on to the next. -/
def Leads (p : Payloads) (id : JobId) (pages : Option String → HttpReply) (after next : Option String) : Prop :=
  ∃ last batches, next = some last ∧ p.parseJson (pages after) = .ok batches ∧ batches.Continues id after last

/-- The cursor of the next request, if there is one. -/
private def nextCursor (p : Payloads) (id : JobId) (pages : Option String → HttpReply) (after : Option String) :
    Option (Option String) :=
  match findRound id after (p.parseJson (pages after)) with
  | .done _ => none
  | .again last => some (some last)

variable {pages : Option String → HttpReply} {after next : Option String}

private theorem mem_nextCursor : next ∈ nextCursor p id pages after ↔ Leads p id pages after next := by
  unfold nextCursor
  cases hround : findRound id after (p.parseJson (pages after)) with
  | done result =>
    refine ⟨fun hnone => (by cases hnone), ?_⟩
    rintro ⟨last, batches, -, hparse, hgoes⟩
    rw [findRound_again.mpr ⟨batches, hparse, hgoes⟩] at hround
    cases hround
  | again last =>
    constructor
    · intro hsome
      cases hsome
      obtain ⟨batches, hparse, hgoes⟩ := findRound_again.mp hround
      exact ⟨last, batches, rfl, hparse, hgoes⟩
    · rintro ⟨last', batches, rfl, hparse, hgoes⟩
      rw [findRound_again.mpr ⟨batches, hparse, hgoes⟩] at hround
      cases hround
      rfl

private theorem leads_eq : (fun after next => next ∈ nextCursor p id pages after) = Leads p id pages := by
  funext after next
  exact propext mem_nextCursor

/-- The search ends where its walk along the cursors ends. -/
private theorem search_ends_iff : (∃ requests result, searchBatches p id (fun _ => pages) requests after = some result) ↔
    (eval (nextCursor p id pages) after).Dom := by
  constructor
  · rintro ⟨requests, result, h⟩
    induction requests generalizing after with
    | zero => cases h
    | succ requests ih =>
      cases hround : findRound id after (p.parseJson (pages after)) with
      | done found =>
        have hlast : nextCursor p id pages after = none := by
          unfold nextCursor
          rw [hround]
        exact Part.dom_iff_mem.mpr ⟨after, mem_eval.mpr ⟨.refl, hlast⟩⟩
      | again last =>
        have hnext : nextCursor p id pages after = some (some last) := by
          unfold nextCursor
          rw [hround]
        rw [searchBatches_again hround] at h
        rw [eval_dom_step hnext]
        exact ih h
  · intro hdom
    obtain ⟨last, hlast⟩ := Part.dom_iff_mem.mp hdom
    obtain ⟨hreach, hend⟩ := mem_eval.mp hlast
    induction hreach using ReflTransGen.head_induction_on with
    | refl =>
      unfold nextCursor at hend
      cases hround : findRound id last (p.parseJson (pages last)) with
      | done result => exact ⟨1, result, searchBatches_done hround⟩
      | again cursor =>
        rw [hround] at hend
        cases hend
    | head hstep hrest ih =>
      obtain ⟨cursor, batches, rfl, hparse, hgoes⟩ := mem_nextCursor.mp hstep
      have hrest := ih ((eval_dom_step hstep).mp hdom) (reaches_eval (ReflTransGen.single hstep) ▸ hlast)
      obtain ⟨requests, result, hsearch⟩ := hrest
      refine ⟨requests + 1, result, ?_⟩
      rw [searchBatches_again (findRound_again.mpr ⟨batches, hparse, hgoes⟩)]
      exact hsearch

/-- Against a provider whose reply is a function of the cursor and that names finitely many of them, the
search ends exactly when no cursor it comes to leads back to itself. -/
theorem search_stops_iff (hfinite : {last | ∃ after batches, p.parseJson (pages after) = .ok batches ∧
      batches.lastId = some last}.Finite) :
    (∃ requests result, searchBatches p id (fun _ => pages) requests none = some result) ↔
    ¬ ∃ cursor, ReflTransGen (Leads p id pages) none cursor ∧ TransGen (Leads p id pages) cursor cursor := by
  have hreached : {next | Reaches (nextCursor p id pages) none next}.Finite := by
    refine ((hfinite.image some).insert none).subset fun next hnext => ?_
    rcases ReflTransGen.cases_tail hnext with rfl | ⟨before, -, hstep⟩
    · exact Set.mem_insert _ _
    · obtain ⟨last, batches, rfl, hparse, hgoes⟩ := mem_nextCursor.mp hstep
      exact Set.mem_insert_of_mem _ ⟨last, ⟨before, batches, hparse, hgoes.cursor⟩, rfl⟩
  rw [search_ends_iff, eval_dom_iff_no_circle hreached]
  unfold Reaches Reaches₁
  rw [leads_eq]
  exact ⟨fun h ⟨cursor, hreach, hcircle⟩ => h cursor hreach hcircle,
    fun h cursor hreach hcircle => h ⟨cursor, hreach, hcircle⟩⟩

section Counterexample

private theorem twoPages_finite : {last | ∃ after batches, twoPages.parseJson (serveTwo 0 after) = .ok batches ∧
    batches.lastId = some last}.Finite := by
  refine (Set.toFinite {"b1", "b2"}).subset ?_
  rintro last ⟨after, batches, hparse, hlast⟩
  obtain ⟨-, body, -, -, hdecode⟩ := parseJson_ok hparse
  unfold twoPages at hdecode
  dsimp only at hdecode
  split at hdecode
  · cases hdecode
    exact .inl (Option.some.inj hlast).symm
  · split at hdecode
    · cases hdecode
      exact .inr (Option.some.inj hlast).symm
    · cases hdecode
      cases hlast

/-- The search over the two pages ended, so they do not lead in a circle. -/
theorem search_stops_iff_two :
    ¬ ∃ cursor, ReflTransGen (Leads twoPages ⟨"job"⟩ (serveTwo 0)) none cursor ∧
      TransGen (Leads twoPages ⟨"job"⟩ (serveTwo 0)) cursor cursor := by
  have hsearch : searchBatches twoPages ⟨"job"⟩ (fun _ => serveTwo 0) 2 none = some (.ok (some wanted)) := by
    have hagain : findRound ⟨"job"⟩ none (twoPages.parseJson (serveTwo 0 none)) = .again "b1" := by
      rw [twoPages_first]
      rfl
    have hdone : findRound ⟨"job"⟩ (some "b1") (twoPages.parseJson (serveTwo 0 (some "b1"))) =
        .done (.ok (some wanted)) := by
      rw [twoPages_second]
      rfl
    exact (searchBatches_again hagain).trans (searchBatches_done hdone)
  exact (search_stops_iff twoPages_finite).mp ⟨2, .ok (some wanted), hsearch⟩

private def circle : Payloads :=
  { decode := fun body =>
      if body.data = "\x7b\"data\":[],\"has_more\":true,\"last_id\":\"a\"\x7d".toUTF8.data then .ok ⟨[], true, some "a"⟩
      else .ok ⟨[], true, some "b"⟩
    lossy := fun _ => "" }

/-- The page behind `a` names `b`, every other page names `a`. -/
private def serveCircle (after : Option String) : HttpReply :=
  .answered ⟨200, "200 OK"⟩ (if after = some "a" then "\x7b\"data\":[],\"has_more\":true,\"last_id\":\"b\"\x7d".toUTF8
    else "\x7b\"data\":[],\"has_more\":true,\"last_id\":\"a\"\x7d".toUTF8)

/-- Two cursors that name each other keep the search asking for ever. -/
theorem circling_search_never_ends :
    {last | ∃ after batches, circle.parseJson (serveCircle after) = .ok batches ∧ batches.lastId = some last}.Finite ∧
    ∀ requests, searchBatches circle ⟨"job"⟩ (fun _ => serveCircle) requests none = none := by
  constructor
  · refine (Set.toFinite {"a", "b"}).subset ?_
    rintro last ⟨after, batches, hparse, hlast⟩
    obtain ⟨-, body, -, -, hdecode⟩ := parseJson_ok hparse
    unfold circle at hdecode
    dsimp only at hdecode
    split at hdecode
    · cases hdecode
      exact .inl (Option.some.inj hlast).symm
    · cases hdecode
      exact .inr (Option.some.inj hlast).symm
  · intro requests
    have hall : ∀ after, after = none ∨ after = some "a" ∨ after = some "b" →
        searchBatches circle ⟨"job"⟩ (fun _ => serveCircle) requests after = none := by
      induction requests with
      | zero => exact fun _ _ => rfl
      | succ requests ih =>
        rintro after (rfl | rfl | rfl)
        · exact ih (some "a") (.inr (.inl rfl))
        · exact ih (some "b") (.inr (.inr rfl))
        · exact ih (some "a") (.inr (.inl rfl))
    exact hall none (.inl rfl)

end Counterexample
end Kaiion.Durable
