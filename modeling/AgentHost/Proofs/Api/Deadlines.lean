import AgentHost.Proofs.Api.Failures
import AgentHost.Proofs.Deadline.Script
/-!
# The limits that are configured

The limit on reading is one on each silence of the body, not on the whole read: a
body that drips is read however long that takes. The limit on the answer ends a
wait, and the answer in its place is 408. It does not end work: a listing is
answered however long the catalog takes.
-/

namespace AgentHost.Api

open Http (Header Request Response)
open Deadline

/-- A timeout that is set leaves some time. -/
theorem millis_pos {timeout : UInt64} (h : timeout ≠ 0) : 0 < timeout.toNat * 1000 := by
  have hset : timeout.toNat ≠ 0 := fun hzero => h (UInt64.toNat_inj.1 hzero)
  omega

/-! ## The limit on reading -/

/-- Reads the body behind some pauses, and answers what it got of it. -/
def reader (before : List Nat) : Script (Except ReadError String) := .reading before fun result => ([], result)

/-- What a reader got is what the delivery says, where the limit on the answer is longer. -/
theorem got_of_reads {s : ServerSettings} {d : Delivery} {before : List Nat} {time : Nat}
    {result : Except ReadError String} (hread : s.readTimeout ≠ 0)
    (h : d.Reads (limits s).read (total before) time result) (htime : time < (limits s).write) :
    ((reader before).handler.run (limits s) (d.seenFrom (total before))).answer? = some result := by
  have hanswers : (reader before).Answers d (limits s).read time result := .reading h
  have hkept := kept_run (millis_pos hread) (Nat.zero_lt_of_lt htime) hanswers
  exact hkept.answer?.trans (if_pos htime)

/-- A body is read whole exactly when no silence in it is as long as the limit, however
long the whole read takes; otherwise the read fails. A body that is over within
the limit is always read whole. -/
theorem body_whole_iff_steady (s : ServerSettings) (d : Delivery) (before : List Nat) (hread : s.readTimeout ≠ 0)
    (hwrite : ∀ time result, d.Reads (limits s).read (total before) time result → time < (limits s).write) :
    let limit : Nat := s.readTimeout.toNat * 1000
    let start : Nat := total before
    let got := ((reader before).handler.run (limits s) (d.seenFrom start)).answer?
    (got = some (.ok d.text) ↔ ∀ chunks, ¬ d.SilentAfter limit start chunks) ∧
    ((∃ chunks, d.SilentAfter limit start chunks) → got = some (.error .silent)) ∧
    ∀ time, d.ends = some time → max (Delivery.reached start d.chunks) time < start + limit →
      got = some (.ok d.text) := by
  intro limit start got
  obtain ⟨time, result, hreads⟩ : ∃ time result, d.Reads (limits s).read start time result :=
    ⟨_, _, d.reads_read (millis_pos hread) start⟩
  have hgot : got = some result := got_of_reads hread hreads (hwrite time result hreads)
  -- The two ways in which a read ends, with what the reader has got then.
  have hend : (got = some (.ok d.text) ∧ ∀ chunks, ¬ d.SilentAfter limit start chunks) ∨
      (got = some (.error .silent) ∧ ∃ chunks, d.SilentAfter limit start chunks) := by
    cases hreads with
    | whole _ hsteady => exact .inl ⟨hgot, hsteady⟩
    | silent hfirst => exact .inr ⟨hgot, _, hfirst.silent⟩
  have hsteady : (∀ chunks, ¬ d.SilentAfter limit start chunks) → got = some (.ok d.text) := by
    intro hnone
    rcases hend with ⟨hwhole, -⟩ | ⟨-, chunks, hsilent⟩
    · exact hwhole
    · exact absurd hsilent (hnone chunks)
  refine ⟨⟨fun hwhole => ?_, hsteady⟩, fun ⟨chunks, hsilent⟩ => ?_, fun time hends hwithin => ?_⟩
  · rcases hend with ⟨-, hnone⟩ | ⟨hfailed, -⟩
    · exact hnone
    · rw [hfailed] at hwhole
      cases hwhole
  · rcases hend with ⟨-, hnone⟩ | ⟨hfailed, -⟩
    · exact absurd hsilent (hnone chunks)
    · exact hfailed
  · exact hsteady (Delivery.steady_of_within hends hwithin)

/-- A body of two chunks that drips for longer than a second, with no silence of a second. -/
def dripping : Delivery := ⟨[(600, "a"), (1200, "b")], some 1200⟩

theorem body_whole_iff_steady_dripping :
    let s : ServerSettings := ⟨"127.0.0.1", 8080, 1, 30⟩
    s.readTimeout ≠ 0 ∧
    (∀ time result, dripping.Reads (limits s).read (total []) time result → time < (limits s).write) ∧
    ∀ chunks, ¬ dripping.SilentAfter 1000 0 chunks := by
  intro s
  have hread : s.readTimeout ≠ 0 := by decide
  have hwrite : ∀ time result, dripping.Reads (limits s).read (total []) time result → time < (limits s).write := by
    intro time result h
    obtain ⟨rfl, -⟩ := (dripping.reads_read (millis_pos hread) (total [])).unique h
    decide +kernel
  have hsteady := (body_whole_iff_steady s dripping [] hread hwrite).1.1 (by decide +kernel)
  rw [show s.readTimeout.toNat * 1000 = 1000 by decide] at hsteady
  exact ⟨hread, hwrite, hsteady⟩

/-- A body that ends later than the limit after the start of the read is read whole all the same. -/
theorem dripping_body_read_whole :
    let s : ServerSettings := ⟨"127.0.0.1", 8080, 1, 30⟩
    let got := ((reader []).handler.run (limits s) (dripping.seenFrom 0)).answer?
    ¬ (got = some (.ok dripping.text) ↔ ∃ time, dripping.ends = some time ∧ time < 0 + (limits s).read) := by
  intro s got hiff
  obtain ⟨time, hends, htime⟩ := hiff.1 (by decide +kernel)
  obtain rfl := Option.some.inj hends
  exact absurd htime (by decide)

/-! ## Both limits -/

/-- A handler that waits gets its answer through when it is due before the limit on the
answer, and else there is a bare 408 at the limit, never later. A silence of the
body ends the read when the limit on reading is over, counted from where the silence
began; an answer to that which comes at once gets through when this is before the
limit on the answer. -/
theorem limits_compose (s : ServerSettings) (d : Delivery) (script : Script Answer) (hread : s.readTimeout ≠ 0)
    (hwrite : s.writeTimeout ≠ 0) :
    let readLimit : Nat := s.readTimeout.toNat * 1000
    let writeLimit : Nat := s.writeTimeout.toNat * 1000
    let outcome := script.handler.run (limits s) (d.seenFrom script.start)
    (∃ due answer, script.Answers d readLimit due answer) ∧
    (∀ due answer, script.Answers d readLimit due answer →
      (outcome.answer? = none ↔ writeLimit ≤ due) ∧ outcome.time = min due writeLimit ∧
      received outcome = if due < writeLimit then answer else ⟨timedOut, []⟩) ∧
    timedOut.status.code = 408 ∧ outcome.time ≤ writeLimit ∧
    ∀ before after got, script = .reading before after → d.FirstSilence readLimit (total before) got →
      let failed := Delivery.reached (total before) got + readLimit
      (failed < writeLimit → (failed, .failure .silent) ∈ outcome.events) ∧
      ∀ answer, after (.error .silent) = ([], answer) → (outcome.answer? = some answer ↔ failed < writeLimit) := by
  intro readLimit writeLimit outcome
  have hr : 0 < readLimit := millis_pos hread
  have hw : 0 < writeLimit := millis_pos hwrite
  have hkept : ∀ due answer, script.Answers d readLimit due answer → outcome.Kept writeLimit due answer :=
    fun due answer h => kept_run hr hw h
  obtain ⟨due, answer, hanswers⟩ := script.exists_answers hr d
  refine ⟨⟨due, answer, hanswers⟩, ?_, rfl, ?_, ?_⟩
  · intro due answer h
    refine ⟨(hkept due answer h).answer?_eq_none_iff, (hkept due answer h).time, ?_⟩
    rw [received, (hkept due answer h).answer?]
    split <;> rfl
  · rw [(hkept due answer hanswers).time]
    exact Nat.min_le_right ..
  · rintro before after got rfl hfirst failed
    have hreads : d.Reads readLimit (total before) failed (.error .silent) := .silent hfirst
    refine ⟨fun hfailed => failure_mem_run hr hw hreads hfailed, fun answer hafter => ?_⟩
    have hanswer := hkept _ _ (.reading hreads)
    rw [hafter] at hanswer
    exact hanswer.answer?_eq_some_iff

/-- Reads behind a pause and answers at once when that fails. -/
def patient : Script Answer := .reading [200] fun
  | .ok text => ([500], ⟨textResponse .ok text, []⟩)
  | .error e => ([], ⟨textResponse .badRequest e.message, []⟩)

/-- Two chunks, and then nothing. -/
def stalling : Delivery := ⟨[(100, "a"), (900, "b")], none⟩

theorem limits_compose_stalling :
    let s : ServerSettings := ⟨"127.0.0.1", 8080, 1, 5⟩
    let outcome := patient.handler.run (limits s) (stalling.seenFrom 200)
    s.readTimeout ≠ 0 ∧ s.writeTimeout ≠ 0 ∧ stalling.FirstSilence 1000 200 stalling.chunks ∧
    (1900, .failure .silent) ∈ outcome.events ∧
    outcome.answer? = some ⟨textResponse .badRequest ReadError.silent.message, []⟩ := by
  intro s outcome
  have hread : s.readTimeout ≠ 0 := by decide
  have hwrite : s.writeTimeout ≠ 0 := by decide
  have hfirst : stalling.FirstSilence 1000 200 stalling.chunks := by
    refine ⟨⟨[], rfl, fun _ hnever => absurd hnever (Option.not_mem_none _)⟩, ?_⟩
    rintro earlier hlt ⟨rest, hchunks, hsilent⟩
    have hall : ∀ chunk ∈ stalling.chunks, chunk.1 ≤ 900 := by decide
    cases rest with
    | nil => simp [hchunks] at hlt
    | cons chunk rest =>
      have hstart := Delivery.le_reached 200 earlier
      have hnext := hsilent chunk.1 rfl
      have := hall chunk (by simp [hchunks])
      omega
  obtain ⟨-, -, -, -, hsilence⟩ := limits_compose s stalling patient hread hwrite
  rw [show s.readTimeout.toNat * 1000 = 1000 by decide, show s.writeTimeout.toNat * 1000 = 5000 by decide] at hsilence
  obtain ⟨hshown, hanswered⟩ := hsilence _ _ _ rfl hfirst
  exact ⟨hread, hwrite, hfirst, hshown (by decide), (hanswered _ rfl).2 (by decide)⟩

/-! ## The listing -/

/-- The listing of the agents is answered in full however long the catalog takes, and when it
is there: what is work is not cut off. Had the catalog been waited for, there would
be no answer from the limit on. -/
theorem listing_outlasts_limit (build : Build) (agents : List Agent) (delay : Nat) (query : Option String)
    (headers : List Header) (s : ServerSettings) (hwrite : s.writeTimeout ≠ 0) :
    let r : Router := ⟨build, ⟨agents, delay⟩⟩
    let request : Request := ⟨.get, ⟨"/api/v1/agents", query⟩, headers⟩
    let outcome := r.serve s request
    (received outcome).response.status.code = 200 ∧
    AgentList.decode (received outcome).response.body.toList = .ok ⟨agents⟩ ∧ outcome.time = delay ∧
    ∀ answer : Answer, ((Handler.sleep delay (.answer answer)).run (limits s) .spent).answer? = none ↔
      s.writeTimeout.toNat * 1000 ≤ delay := by
  intro r request outcome
  have hw : 0 < (limits s).write := millis_pos hwrite
  have hanswer : received outcome = r.answer request := r.respond_of_limited s request hwrite
  have hdraft : r.draft request = r.content .agents := r.draft_reading .agents rfl Router.isReading_get
  obtain ⟨hcode, hbody⟩ := r.content_says .agents
  refine ⟨?_, ?_, ?_, fun answer => ?_⟩
  · rw [hanswer, r.status_answer, hdraft]
    exact hcode
  · rw [hanswer, r.answer_of_ne_head request Router.get_ne_head, hdraft]
    exact hbody
  · have hlists : Router.lists request = true := by
      show (decide (Route.ofPath? Route.agents.path = some .agents) && Router.isReading .get) = true
      rw [Route.ofPath?_path, Router.isReading_get]
      rfl
    show ((r.handler request).run (limits s) .spent).time = delay
    simp only [Handler.run, if_neg (Nat.ne_of_gt hw), Router.handler, hlists, if_true, Handler.runFrom]
    exact Nat.zero_add delay
  · have hkept := kept_pausing hw .spent [delay] answer
    have hrun : (Handler.sleep delay (.answer answer)).run (limits s) .spent =
        Handler.runFrom (limits s) 0 .spent (.pausing [delay] (.answer answer)) := if_neg (Nat.ne_of_gt hw)
    rw [hrun, hkept.answer?_eq_none_iff, Nat.zero_add]
    exact Iff.rfl

theorem listing_outlasts_limit_twoSeconds :
    let r : Router := ⟨.ofParts none none none none, ⟨[⟨"a", none, some "1"⟩, ⟨"b", some "", none⟩], 2000⟩⟩
    let s : ServerSettings := ⟨"127.0.0.1", 8080, 30, 1⟩
    let outcome := r.serve s ⟨.get, ⟨"/api/v1/agents", some "page=2"⟩, []⟩
    s.writeTimeout ≠ 0 ∧ (received outcome).response.status.code = 200 ∧
    AgentList.decode (received outcome).response.body.toList = .ok ⟨r.catalog.agents⟩ ∧ outcome.time = 2000 := by
  intro r s outcome
  have hwrite : s.writeTimeout ≠ 0 := by decide
  obtain ⟨hcode, hbody, htime, -⟩ := listing_outlasts_limit r.build r.catalog.agents 2000 (some "page=2") [] s hwrite
  exact ⟨hwrite, hcode, hbody, htime⟩

/-- The listing is answered under a limit of one second when the catalog takes two. -/
theorem slow_listing_not_timed_out :
    let r : Router := ⟨.ofParts none none none none, ⟨[], 2000⟩⟩
    let s : ServerSettings := ⟨"127.0.0.1", 8080, 30, 1⟩
    let got : Answer := r.respond s ⟨.get, ⟨"/api/v1/agents", none⟩, []⟩
    (limits s).write < r.catalog.delay ∧ got.response.status.code ≠ 408 := by
  decide +kernel

end AgentHost.Api
