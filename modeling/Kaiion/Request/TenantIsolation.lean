import Kaiion.Durable.Tenancy
import Kaiion.Foundation.Confinement
import Kaiion.Request.Identity

/-! Tenants: credentials name their owner, and an owner's results do not depend on other owners. -/
namespace Kaiion
open Durable Foundation

/-- The components of a fingerprint. -/
def Durable.UpstreamAuth.components (auth : Durable.UpstreamAuth) : List Component :=
  component "authorization" auth.authorization :: (auth.organization.toList.map (component "organization") ++
    auth.project.toList.map (component "project"))

theorem Durable.UpstreamAuth.fingerprint_eq (crates : Crates) (auth : Durable.UpstreamAuth) :
    auth.fingerprint crates = crates.hexDigest (encodeAll auth.components) := by
  obtain ⟨authorization, organization, project⟩ := auth
  cases organization <;> cases project <;>
    simp [Durable.UpstreamAuth.fingerprint, Durable.UpstreamAuth.components, encodeAll, hashComponent,
      hashBytes_eq, component]

/-- An organization is never confused with a project. -/
theorem Durable.UpstreamAuth.components_injective {auth auth' : Durable.UpstreamAuth}
    (h : auth.components = auth'.components) : auth = auth' := by
  have hcomponent : ∀ name name' value value', component name value = component name' value' ↔
      name = name' ∧ value = value' := fun _ _ _ _ => ⟨component_inj, fun h => by rw [h.1, h.2]⟩
  obtain ⟨authorization, organization, project⟩ := auth
  obtain ⟨authorization', organization', project'⟩ := auth'
  cases organization <;> cases project <;> cases organization' <;> cases project' <;>
    simp_all [Durable.UpstreamAuth.components]

/-- Credentials a program can hold. -/
structure Tenant extends Durable.UpstreamAuth where
  authorization_fits : FitsLength authorization
  organization_fits : ∀ text, organization = some text → FitsLength text
  project_fits : ∀ text, project = some text → FitsLength text
  deriving DecidableEq

theorem Tenant.components_fit (tenant : Tenant) : ∀ part ∈ tenant.components, part.Fits := by
  intro part hpart
  simp only [Durable.UpstreamAuth.components, List.mem_cons, List.mem_append, List.mem_map, Option.mem_toList] at hpart
  rcases hpart with rfl | ⟨text, htext, rfl⟩ | ⟨text, htext, rfl⟩
  · exact component_fits (by decide) tenant.authorization_fits
  · exact component_fits (by decide) (tenant.organization_fits text htext)
  · exact component_fits (by decide) (tenant.project_fits text htext)

/-- Different credentials have different fingerprints. -/
theorem Tenant.fingerprint_injective {crates : Crates} (hfree : crates.CollisionFree) {tenant tenant' : Tenant}
    (h : tenant.fingerprint crates = tenant'.fingerprint crates) : tenant = tenant' := by
  rw [Durable.UpstreamAuth.fingerprint_eq, Durable.UpstreamAuth.fingerprint_eq] at h
  have hauth := Durable.UpstreamAuth.components_injective
    (encodeAll_inj tenant.components_fit tenant'.components_fit (hfree.hexDigest_inj h))
  cases tenant
  cases tenant'
  cases hauth
  rfl

/-- Tenants at one store. -/
def tenancy (crates : Crates) : Shared Database Tenant (Operation × Fault) Reply where
  step tenant op db := op.1.run crates.json (tenant.fingerprint crates) op.2 db
  admits tenant op db := op.1.Admitted (tenant.fingerprint crates) db

theorem tenancy_confines {crates : Crates} (hfree : crates.CollisionFree) (tenant : Tenant) :
    (tenancy crates).Confines Database.Registered tenant (Database.ownedBy · (tenant.fingerprint crates)) where
  keeps _ op _ h _ := op.1.run_registered crates.json _ op.2 h
  own op db db' h h' hadmitted hadmitted' hpart := by
    obtain ⟨hreply, hnext⟩ := op.1.run_own crates.json op.2 h hadmitted
    obtain ⟨hreply', hnext'⟩ := op.1.run_own crates.json op.2 h' hadmitted'
    rw [← hpart] at hreply' hnext'
    exact ⟨hreply.trans hreply'.symm, hnext.trans hnext'.symm⟩
  others _ op _ _ hadmitted hne :=
    op.1.run_other crates.json op.2 (fun heq => hne (Tenant.fingerprint_injective hfree heq)) hadmitted

/-- Whatever the other tenants do between a tenant's operations, it gets the same results. -/
theorem tenants_are_isolated {crates : Crates} (hfree : crates.CollisionFree) (tenant : Tenant) {db : Database}
    (hdb : db.Registered) {run run' : List (Tenant × Operation × Fault)}
    (hrun : (tenancy crates).Admissible db run) (hrun' : (tenancy crates).Admissible db run')
    (hsame : operationsOf tenant run = operationsOf tenant run') :
    (tenancy crates).observed tenant db run = (tenancy crates).observed tenant db run' :=
  (tenancy_confines hfree tenant).observed_eq hdb hdb rfl hrun hrun' hsame

section Witness

def alice : Tenant := ⟨⟨"Bearer a", none, none⟩, by decide, fun _ h => (nomatch h), fun _ h => nomatch h⟩

def bob : Tenant := ⟨⟨"Bearer b", none, none⟩, by decide, fun _ h => (nomatch h), fun _ h => nomatch h⟩

private def asked : NormalizedRequest :=
  ⟨.object [("input", .string "hi"), ("model", .string "gpt-5")], "request", "gpt-5", false, some "key"⟩

private def registering : Tenant × Operation × Fault := (alice, .enqueue "job" "https://api.openai.com/v1" asked, .none)

private def reading : Operation × Fault := (.ownedJob ⟨"job"⟩ "https://api.openai.com/v1", .none)

private def checking : Operation × Fault := (.checkIdempotency asked, .none)

/-- One tenant registers a job; another asks for this job and for its key; the first reads it. -/
private def visited : List (Tenant × Operation × Fault) :=
  [registering, (bob, reading), (bob, checking), (alice, reading)]

private def askedJob : Job := ⟨⟨"job"⟩, "gpt-5", .queued⟩

private theorem visited_admissible : (tenancy sampleCrates).Admissible .empty visited :=
  ⟨List.not_mem_nil, trivial, trivial, trivial, trivial⟩

private theorem alone_owns : (tenancy sampleCrates).observed alice .empty [registering, (alice, reading)] =
    [.job (.ok askedJob), .job (.ok askedJob)] := by
  have hregistered : (tenancy sampleCrates).step alice registering.2 .empty = (_, .job (.ok askedJob)) :=
    congrArg (Prod.map id Reply.job) (Database.enqueue_empty sampleCrates.json "job" (alice.fingerprint sampleCrates)
      "https://api.openai.com/v1" (rfl : asked.idempotencyHash = some "key") rfl)
  have hread (a : String) : (Database.mk [.queued "job" a asked.requestHash asked.model]
      [⟨"job", "https://api.openai.com/v1", a, some "key", sampleCrates.json.print asked.batchBody⟩]).ownedJob
        sampleCrates.json ⟨"job"⟩ a "https://api.openai.com/v1" = .ok askedJob := by
    simp [Database.ownedJob, Database.joined, JobRow.queued, JobRow.tryFrom, JobRow.reject, Except.mapError, asked,
      askedJob, bind, Except.bind, pure, Except.pure]
  simp only [Shared.observed, registering, if_pos] at hregistered ⊢
  rw [hregistered]
  exact congrArg (fun job => [Reply.job (.ok askedJob), Reply.job job]) (hread (alice.fingerprint sampleCrates))

/-- The owner gets its job each time, and the other tenant learns of neither the job nor the key. -/
theorem tenants_are_isolated_visited :
    (tenancy sampleCrates).observed alice .empty visited = [.job (.ok askedJob), .job (.ok askedJob)] ∧
    (tenancy sampleCrates).observed bob .empty visited = [.job (.error .notFound), .checked (.ok ())] := by
  have hempty := (Database.empty_sound sampleCrates.json).toRegistered
  have halice : (tenancy sampleCrates).Admissible .empty [registering, (alice, reading)] :=
    ⟨List.not_mem_nil, trivial, trivial⟩
  have hbob : (tenancy sampleCrates).Admissible .empty [(bob, reading), (bob, checking)] := ⟨trivial, trivial, trivial⟩
  exact ⟨(tenants_are_isolated sampleCrates_collisionFree alice hempty visited_admissible halice rfl).trans alone_owns,
    (tenants_are_isolated sampleCrates_collisionFree bob hempty visited_admissible hbob rfl).trans rfl⟩

end Witness
end Kaiion
