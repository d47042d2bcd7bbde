import Kaiion.Proxy.JobRuns

/-! The start of a process: it takes up what an earlier one left unfinished. -/
namespace Kaiion.Proxy
open Durable Foundation
variable {c : Codec} {s : Registry}

namespace JobApi

private theorem empty_before {id : String} (h : id ≠ "") : "" < id := by
  rw [String.lt_iff_toList_lt]
  cases hchars : id.toList with
  | nil => exact absurd (String.toList_eq_nil_iff.mp hchars) h
  | cons first rest => exact List.nil_lt_cons first rest

section Start
variable {crates : Crates} (provider : String) (auth : UpstreamAuth)

/-- The unfinished jobs of a list get a worker each. -/
theorem resumeJobs_gives (jobs : List JobSummary) (h : s.Intact crates.json)
    (hended : ∀ job ∈ jobs, job.terminal = true → s.fleet.world.db.Ended ⟨job.id⟩) :
    Gives crates.json (resumeJobs crates provider auth jobs) (fun _ r => ∀ job ∈ jobs, r.Cared ⟨job.id⟩) s := by
  induction jobs generalizing s with
  | nil =>
    refine Gives.ok (fun _ => ?_) h fun _ hmem => absurd hmem List.not_mem_nil
    exact Lasting.all fun job : JobSummary => Lasting.all fun _ => lasting_cared ⟨job.id⟩
  | cons job later ih =>
    have hlasting : ∀ _ : Unit, Lasting crates.json fun r => ∀ other ∈ job :: later, r.Cared ⟨other.id⟩ :=
      fun _ => Lasting.all fun other => Lasting.all fun _ => lasting_cared ⟨other.id⟩
    -- What is still to come, once this job is taken care of.
    have hrest : ∀ t : Registry, t.Intact crates.json → t.Cared ⟨job.id⟩ →
        (∀ other ∈ later, other.terminal = true → t.fleet.world.db.Ended ⟨other.id⟩) →
        Gives crates.json (resumeJobs crates provider auth later)
          (fun _ r => ∀ other ∈ job :: later, r.Cared ⟨other.id⟩) t := by
      intro t ht hcared hlater
      refine Gives.mono ((ih ht hlater).keeps (lasting_cared ⟨job.id⟩) ht hcared) fun _ u hu other hother => ?_
      rcases List.mem_cons.mp hother with rfl | hother
      · exact hu.2
      · exact hu.1 other hother
    have hlater : ∀ other ∈ later, other.terminal = true → s.fleet.world.db.Ended ⟨other.id⟩ :=
      fun other hother => hended other (List.mem_cons_of_mem _ hother)
    have hkept : Lasting crates.json fun r => ∀ other ∈ later, other.terminal = true →
        r.fleet.world.db.Ended ⟨other.id⟩ :=
      Lasting.all fun other => Lasting.all fun _ => Lasting.all fun _ => lasting_ended ⟨other.id⟩
    unfold resumeJobs
    cases hterminal : job.terminal with
    | true => exact hrest s h (.inr (hended job List.mem_cons_self hterminal)) hlater
    | false =>
      have hfound := (ownedRequest_gives h ⟨job.id⟩ (auth.fingerprint crates) provider).keeps hkept h hlater
      refine Gives.andThen hlasting hfound fun found t ht hread => ?_
      have hsubscribed := (subscribe_gives ht found.1 auth found.2).keeps hkept ht hread.2
      refine Gives.andThen hlasting hsubscribed fun receiver u hu hreceiver => ?_
      exact hrest u hu (hread.1.2.1 ▸ hreceiver.1.2.2) hreceiver.2

/-- What a page says of the jobs in these ids, whatever is stored after it was read. -/
structure Paged (db : Database) (authHash : String) (ids : String → Prop) (after : String) (jobs : List JobSummary) :
    Prop where
  ended : ∀ job ∈ jobs, job.terminal = true → db.Ended ⟨job.id⟩
  owned : ∀ job ∈ jobs, OwnsId db authHash provider job.id
  ahead : ∀ job ∈ jobs, after < job.id
  covers : ∀ last, jobs.getLast? = some last → ∀ id, ids id → after < id → id ≤ last.id → ∃ job ∈ jobs, job.id = id
  empty : jobs = [] → ∀ id, ids id → id ≤ after

theorem paged_listOwned {db : Database} (hw : db.WellFormed) (hchecked : db.Checked c) {authHash : String}
    {ids : String → Prop} (howned : ∀ id, ids id → OwnsId db authHash provider id) (after : String) :
    Paged provider db authHash ids after (db.listOwned authHash provider after 100) := by
  have hsorted : (ownedRows db authHash provider).Pairwise (fun a b => a.id < b.id) := ownedRows_ascending hw
  have hmem : ∀ job ∈ db.listOwned authHash provider after 100, ∃ row, job = summaryOf row ∧ after < row.id ∧
      ∃ request, Owns db authHash provider row request := by
    intro job hjob
    rw [listOwned_eq hw] at hjob
    obtain ⟨row, hrow, rfl⟩ := List.mem_map.mp hjob
    obtain ⟨hrow, hafter⟩ := List.mem_filter.mp (List.mem_of_mem_take hrow)
    exact ⟨row, rfl, of_decide_eq_true hafter, mem_ownedRows.mp hrow⟩
  refine ⟨fun job hjob hterminal => ?_, fun job hjob => ?_, fun job hjob => ?_, fun last hlast id hid hafter hle => ?_,
    fun hnil id hid => ?_⟩
  · obtain ⟨row, rfl, -, request, howns⟩ := hmem job hjob
    exact ⟨row, hw.uniqueIds.row?_of_mem howns.stored, JobRow.stage_of_check (hchecked row howns.stored) hterminal⟩
  · obtain ⟨row, rfl, -, request, howns⟩ := hmem job hjob
    exact ⟨row, request, howns, rfl⟩
  · obtain ⟨row, rfl, hafter, -⟩ := hmem job hjob
    exact hafter
  · obtain ⟨row, request, howns, rfl⟩ := howned id hid
    have hcursor := @page_last db authHash provider hw after
    rw [hlast] at hcursor
    have hpage := mem_page hsorted hcursor.symm (mem_ownedRows.mpr ⟨request, howns⟩) hafter hle
    rw [listOwned_eq hw]
    exact ⟨summaryOf row, List.mem_map_of_mem hpage, rfl⟩
  · obtain ⟨row, request, howns, rfl⟩ := howned id hid
    rw [listOwned_eq hw] at hnil
    exact le_of_page_nil (by decide) (List.map_eq_nil_iff.mp hnil) (mem_ownedRows.mpr ⟨request, howns⟩)

/-- The jobs in these ids are the credential's, and up to the cursor they are taken care of. -/
structure TakenUp (c : Codec) (authHash : String) (ids : String → Prop) (after : String) (r : Registry) : Prop where
  checked : r.fleet.world.db.Checked c
  owned : ∀ id, ids id → OwnsId r.fleet.world.db authHash provider id
  cared : ∀ id, ids id → id ≤ after → r.Cared ⟨id⟩

/-- A walk that is through has taken up all jobs; one that is not has met another job on every page. -/
def Walked (authHash : String) (ids : String → Prop) (after : String) (pages : Nat) (through : Option Unit)
    (r : Registry) : Prop :=
  match through with
  | some () => ∀ id, ids id → r.Cared ⟨id⟩
  | none => ∃ met : List String, met.length = pages ∧ (after :: met).Pairwise (· < ·) ∧
      ∀ id ∈ met, OwnsId r.fleet.world.db authHash provider id

variable {authHash : String} {ids : String → Prop} {after : String}

theorem lasting_paged (jobs : List JobSummary) :
    Lasting c fun r => Paged provider r.fleet.world.db authHash ids after jobs := fun a b ha hr h => {
  ended := fun job hjob hterminal => lasting_ended ⟨job.id⟩ a b ha hr (h.ended job hjob hterminal)
  owned := fun job hjob => lasting_ownsId authHash provider job.id a b ha hr (h.owned job hjob)
  ahead := h.ahead
  covers := h.covers
  empty := h.empty }

theorem lasting_takenUp : Lasting c (TakenUp provider c authHash ids after) := fun a b ha hr h => {
  checked := lasting_checked a b ha hr h.checked
  owned := fun id hid => lasting_ownsId authHash provider id a b ha hr (h.owned id hid)
  cared := fun id hid hle => lasting_cared ⟨id⟩ a b ha hr (h.cared id hid hle) }

theorem lasting_walked (pages : Nat) (through : Option Unit) :
    Lasting c (Walked provider authHash ids after pages through) := by
  intro a b ha hr h
  cases through with
  | some => exact fun id hid => lasting_cared ⟨id⟩ a b ha hr (h id hid)
  | none =>
    obtain ⟨met, hlength, hascending, howned⟩ := h
    exact ⟨met, hlength, hascending, fun id hid => lasting_ownsId authHash provider id a b ha hr (howned id hid)⟩

/-- Taking up a page moves the cursor to its end. -/
private theorem takenUp_page {r : Registry} {jobs : List JobSummary} {last : JobSummary}
    (hlast : jobs.getLast? = some last) (h : TakenUp provider c authHash ids after r)
    (hpage : Paged provider r.fleet.world.db authHash ids after jobs)
    (hcared : ∀ job ∈ jobs, r.Cared ⟨job.id⟩) : TakenUp provider c authHash ids last.id r where
  checked := h.checked
  owned := h.owned
  cared id hid hle := by
    rcases le_or_gt id after with hbefore | hafter
    · exact h.cared id hid hbefore
    · obtain ⟨job, hjob, rfl⟩ := hpage.covers last hlast id hid hafter hle
      exact hcared job hjob

private theorem Walked.cons {r : Registry} {next : String} {pages : Nat} {through : Option Unit}
    (h : Walked provider authHash ids next pages through r) (hahead : after < next)
    (howned : OwnsId r.fleet.world.db authHash provider next) :
    Walked provider authHash ids after (pages + 1) through r := by
  cases through with
  | some => exact h
  | none =>
    obtain ⟨met, hlength, hascending, hmet⟩ := h
    refine ⟨next :: met, congrArg (· + 1) hlength,
      List.pairwise_cons.mpr ⟨fun id hid => ?_, hascending⟩, fun id hid => ?_⟩
    · rcases List.mem_cons.mp hid with rfl | hid
      · exact hahead
      · exact hahead.trans ((List.pairwise_cons.mp hascending).1 id hid)
    · rcases List.mem_cons.mp hid with rfl | hid
      · exact howned
      · exact hmet id hid

theorem resumePages_gives (ids : String → Prop) (pages : Nat) (h : s.Intact crates.json)
    (hs : TakenUp provider crates.json (auth.fingerprint crates) ids after s) :
    Gives crates.json (resumePages crates provider auth pages after)
      (Walked provider (auth.fingerprint crates) ids after pages) s := by
  induction pages generalizing after s with
  | zero =>
    exact Gives.ok (lasting_walked provider 0) h
      ⟨[], rfl, List.pairwise_singleton _ _, fun _ hid => absurd hid List.not_mem_nil⟩
  | succ pages ih =>
    have hlisted : Gives crates.json (ExceptT.mk (perform (.listOwned (auth.fingerprint crates) provider after 100)))
        (fun (jobs : List JobSummary) r => TakenUp provider crates.json (auth.fingerprint crates) ids after r ∧
          Paged provider r.fleet.world.db (auth.fingerprint crates) ids after jobs) s := by
      refine performs (lasting_takenUp provider)
        (lasting_success fun jobs => (lasting_takenUp provider).and (lasting_paged provider jobs)) h hs ?_
      rintro a reply b ha htaken ⟨rfl, hreply⟩ jobs rfl
      rcases hreply with heq | ⟨message, heq⟩
      · cases heq
        exact ⟨htaken, paged_listOwned provider ha.sound.fleet.wellFormed htaken.checked htaken.owned after⟩
      · cases heq
    unfold resumePages
    refine Gives.andThen (lasting_walked provider (pages + 1)) hlisted fun jobs t ht hjobs => ?_
    obtain ⟨htaken, hpage⟩ := hjobs
    cases hlast : jobs.getLast? with
    | none =>
      have hnil := List.getLast?_eq_none_iff.mp hlast
      exact Gives.ok (lasting_walked provider (pages + 1)) ht fun id hid => htaken.cared id hid (hpage.empty hnil id hid)
    | some last =>
      have hmem := List.mem_of_getLast? hlast
      have hresumed := (resumeJobs_gives provider auth jobs ht hpage.ended).keeps
        ((lasting_takenUp provider).and (lasting_paged provider jobs)) ht ⟨htaken, hpage⟩
      refine Gives.andThen (lasting_walked provider (pages + 1)) hresumed fun _ u hu hjobs => ?_
      obtain ⟨hcared, htakenAt, hpageAt⟩ := hjobs
      have howned := hpageAt.owned last hmem
      have hlater := ih hu (takenUp_page provider hlast htakenAt hpageAt hcared)
      refine Gives.mono (hlater.keeps (lasting_ownsId (auth.fingerprint crates) provider last.id) hu howned) ?_
      exact fun through v hv => Walked.cons provider hv.1 (hpageAt.ahead last hmem) hv.2

theorem resumeFromEnv_gives (env : String → Option String) (pages : Nat) (h : s.Intact crates.json)
    (hchecked : s.fleet.world.db.Checked crates.json) (hids : ∀ row ∈ s.fleet.world.db.jobs, row.id ≠ "") :
    Gives crates.json (resumeFromEnv crates provider env pages) (fun through r => ∃ auth, authFromEnv env = .ok auth ∧
      Walked provider (auth.fingerprint crates)
        (OwnsId s.fleet.world.db (auth.fingerprint crates) provider) "" pages through r) s := by
  have hlasting : ∀ through, Lasting crates.json fun r => ∃ auth, authFromEnv env = .ok auth ∧
      Walked provider (auth.fingerprint crates)
        (OwnsId s.fleet.world.db (auth.fingerprint crates) provider) "" pages through r := by
    rintro through a b ha hr ⟨auth, hauth, hwalked⟩
    exact ⟨auth, hauth, lasting_walked provider pages through a b ha hr hwalked⟩
  refine Gives.andThen hlasting (Q := fun auth r => authFromEnv env = .ok auth ∧
    TakenUp provider crates.json (auth.fingerprint crates)
      (OwnsId s.fleet.world.db (auth.fingerprint crates) provider) "" r)
    (Gives.given (fun _ => (Lasting.const _).and (lasting_takenUp provider)) h fun auth hauth => ⟨hauth, ?_⟩)
    fun auth t ht hstart => ?_
  · refine ⟨hchecked, fun id hid => hid, fun id hid hle => absurd hle (not_le.mpr ?_)⟩
    obtain ⟨row, request, howns, rfl⟩ := hid
    exact empty_before (hids row howns.stored)
  · exact Gives.mono (resumePages_gives provider auth _ pages ht hstart.2) fun through u hu => ⟨auth, hstart.1, hu⟩

end Start

end JobApi

/-- A process that takes up the jobs of the credential in its environment leaves none behind. Whatever its
handlers and workers do meanwhile, once the walk over the pages is through every job that the credential
had is finished or has a task, and it is so for as long as the process lives. The walk is through unless
the credential has more jobs than it went over pages. -/
theorem unfinished_jobs_are_taken_up {crates : Crates} {provider : String} {env : String → Option String} {pages : Nat}
    {start s t : Registry} {through : Option Unit} (hstart : start.Initial)
    (hchecked : start.fleet.world.db.Checked crates.json) (hlife : Registry.Life crates.json start s)
    (hids : ∀ row ∈ s.fleet.world.db.jobs, row.id ≠ "")
    (hrun : Prog.Executes (Registry.Run crates.json) (JobOp.Answers crates.json)
      (JobApi.resumeFromEnv crates provider env pages).run s (.ok through) t) :
    ∃ auth, authFromEnv env = .ok auth ∧
      (through = some () → ∀ id, OwnsId s.fleet.world.db (auth.fingerprint crates) provider id →
        ∀ later, Registry.Run crates.json t later → later.Cared ⟨id⟩) ∧
      (through = none → pages ≤ (ownedRows t.fleet.world.db (auth.fingerprint crates) provider).length) := by
  have hs := hlife.intact hstart.intact
  have hsChecked := StoreStep.run_checked (Registry.Life.stores hlife) hstart.fleet.wellFormed hchecked
  have hdone := (JobApi.resumeFromEnv_gives provider env pages hs hsChecked hids).executes hrun
  obtain ⟨auth, hauth, hwalked⟩ := hdone.2 through rfl
  refine ⟨auth, hauth, ?_, ?_⟩
  · rintro rfl id hid later hlater
    exact lasting_cared ⟨id⟩ t later hdone.1 hlater (hwalked id hid)
  · rintro rfl
    obtain ⟨met, rfl, hascending, howned⟩ := hwalked
    have hnodup : met.Nodup := (List.pairwise_cons.mp hascending).2.imp fun h => h.ne
    have hsubset : met ⊆ (ownedRows t.fleet.world.db (auth.fingerprint crates) provider).map JobRow.id := by
      intro id hid
      obtain ⟨row, request, howns, rfl⟩ := howned id hid
      exact List.mem_map_of_mem (mem_ownedRows.mpr ⟨request, howns⟩)
    have hle := (List.subperm_of_subset hnodup hsubset).length_le
    rwa [List.length_map] at hle

section Witness
open JobApi.Sample

private def keeperEnv (name : String) : Option String := if name = "OPENAI_API_KEY" then some "a" else none

private theorem kept_listed : kept.listOwned (keeper.fingerprint sampleCrates) "https://api.openai.com/v1" "" 100 =
    [⟨"ab", "gpt-5", "queued", false⟩] := by
  have hafter : "" < "ab" := by decide
  unfold Database.listOwned
  rw [kept_joined, List.filter_cons_of_pos (by
    rw [Bool.and_eq_true, Bool.and_eq_true]
    exact ⟨⟨decide_eq_true rfl, decide_eq_true rfl⟩, decide_eq_true hafter⟩), List.filter_nil, List.map_singleton,
    List.mergeSort_singleton]
  rfl

private theorem kept_listed_after :
    kept.listOwned (keeper.fingerprint sampleCrates) "https://api.openai.com/v1" "ab" 100 = [] := by
  have hafter : ¬ "ab" < "ab" := lt_irrefl _
  unfold Database.listOwned
  rw [kept_joined, List.filter_cons_of_neg (by
    rw [Bool.and_eq_true]
    exact fun h => hafter (of_decide_eq_true h.2)), List.filter_nil, List.map_nil, List.mergeSort_nil]
  rfl

private theorem woken_runs : Prog.May (Registry.Run sampleCrates.json) (JobOp.Answers sampleCrates.json)
    (JobApi.resumeFromEnv sampleCrates "https://api.openai.com/v1" keeperEnv 2).run
    (fun result _ => result = .ok (some ())) waking := by
  have hfirst : (JobOp.listOwned (keeper.fingerprint sampleCrates) "https://api.openai.com/v1" "" 100).Answers
      sampleCrates.json waking (.ok [⟨"ab", "gpt-5", "queued", false⟩]) waking :=
    ⟨rfl, .inl (congrArg Except.ok kept_listed.symm)⟩
  have hbody : (JobOp.ownedBody ⟨"ab"⟩ (keeper.fingerprint sampleCrates) "https://api.openai.com/v1").Answers
      sampleCrates.json waking (.ok (some "null")) waking := ⟨rfl, .inl (congrArg Except.ok kept_body.symm)⟩
  have hget : (JobOp.get ⟨"ab"⟩).Answers sampleCrates.json waking (.ok keptJob) (waking.hold keptJob) :=
    .inl ⟨keptJob, kept_get, rfl, rfl⟩
  have hsubscribe : (JobOp.subscribe keptJob keeper .null).Answers sampleCrates.json (waking.hold keptJob)
      (.live ⟨"ab"⟩ 0) woken := ⟨List.mem_cons_self, rfl, rfl⟩
  have hlast : (JobOp.listOwned (keeper.fingerprint sampleCrates) "https://api.openai.com/v1" "ab" 100).Answers
      sampleCrates.json woken (.ok []) woken := ⟨rfl, .inl (congrArg Except.ok kept_listed_after.symm)⟩
  have hrefl : ∀ r : Registry, Registry.Run sampleCrates.json r r := fun _ => .refl
  have hparse : sampleCrates.json.parse "null" = .ok .null := (Json.compact_roundTrips .null).1
  refine ⟨_, woken, .call _ (hrefl _) hfirst (.call _ (hrefl _) hbody (.call _ (hrefl _) hget ?_)), rfl⟩
  rw [hparse]
  exact .call _ (hrefl _) hsubscribe (.call _ (hrefl _) hlast (.ret _ (hrefl _)))

/-- The one unfinished job of the store gets a worker. -/
theorem unfinished_job_is_taken_up : ∃ t : Registry, Prog.Executes (Registry.Run sampleCrates.json)
    (JobOp.Answers sampleCrates.json) (JobApi.resumeFromEnv sampleCrates "https://api.openai.com/v1" keeperEnv 2).run
    waking (.ok (some ())) t ∧ t.Cared ⟨"ab"⟩ := by
  obtain ⟨result, t, hrun, rfl⟩ := woken_runs
  have hchecked : waking.fleet.world.db.Checked sampleCrates.json := by
    intro row hrow
    rw [List.mem_singleton.mp hrow]
    rfl
  have hids : ∀ row ∈ waking.fleet.world.db.jobs, row.id ≠ "" := by
    intro row hrow
    rw [List.mem_singleton.mp hrow]
    exact (by decide : "ab" ≠ "")
  obtain ⟨auth, hauth, hcared, -⟩ := unfinished_jobs_are_taken_up waking_initial hchecked .refl hids hrun
  cases hauth
  exact ⟨t, hrun, hcared rfl "ab"
    ⟨_, _, ⟨List.mem_singleton_self _, List.mem_singleton_self _, rfl, rfl, rfl⟩, rfl⟩ t .refl⟩

end Witness

end Kaiion.Proxy
