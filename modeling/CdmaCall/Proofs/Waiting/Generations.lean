import CdmaCall.Proofs.Waiting.Usage

/-!
# One deadline, counted once

However a guard is used, as long as only deadlines are offered to it that its timers have delivered,
one deadline is in force at a time. It counts once, and not before its time has come; an earlier one
does not count any more once the guard was armed again or disarmed, wherever it is on its way
(`one_deadline_once`). No timer waits longer than thirty years, and a timeout that is longer than
that is cut short (`accepted_before_timeout`).
-/

namespace CdmaCall

namespace GuardBench

variable {T : ℕ} {ops before since after : List Op} {op : Op} {s : Service} {g : ℕ}

/-! ### A whole history -/

theorem served_snoc (T : ℕ) (ops : List Op) (op : Op) :
    served T (ops ++ [op]) = (served T ops).request op := by
  simp [served]

theorem genuine_snoc :
    Genuine T (ops ++ [op]) ↔ Genuine T ops ∧ op.Genuine (served T ops) := by
  unfold Genuine
  constructor
  · intro h
    refine ⟨fun i hi => ?_, ?_⟩
    · have hi' := h i (by simp; omega)
      rwa [List.getElem_append_left hi, List.take_append_of_le_length hi.le] at hi'
    · have hlast := h ops.length (by simp)
      simpa using hlast
  · rintro ⟨h, hlast⟩ i hi
    rcases Nat.lt_or_ge i ops.length with hi' | hi'
    · rw [List.getElem_append_left hi', List.take_append_of_le_length hi'.le]
      exact h i hi'
    · obtain rfl : i = ops.length := by simp at hi; omega
      simpa using hlast

theorem Genuine.prefix (h : Genuine T ops) (hb : before <+: ops) :
    Genuine T before := by
  obtain ⟨rest, rfl⟩ := hb
  induction rest using List.reverseRecOn with
  | nil => simpa using h
  | append_singleton rest op ih =>
    rw [← List.append_assoc] at h
    exact ih (genuine_snoc.1 h).1

theorem settled_served (h : Genuine T ops) : Settled T ops (served T ops) := by
  induction ops using List.reverseRecOn with
  | nil =>
    refine ⟨⟨⟨rfl, by simp [served], ?_, by simp [served, Service.delivered],
      List.nodup_nil, by simp [served, Service.accepted], List.nodup_nil⟩, rfl, rfl, ?_, rfl,
      by simp [served, Service.delivered], .inr ⟨rfl, ?_, ?_⟩⟩, rfl, by simp [served]⟩ <;>
      simp [served, Guard.isArmed, Wanted]
  | append_singleton ops op ih =>
    obtain ⟨hbefore, hop⟩ := genuine_snoc.1 h
    rw [served_snoc]
    exact (ih hbefore).request hop

/-! ### What is accepted -/

theorem Tracks.reply_expire (h : Tracks T ops s) (g : ℕ) :
    (s.bench.step (.expire g)).1 = .flag (s.bench.guard.isArmed && g == arms ops) := by
  show (s.bench.perform (.expire g)).1 = _
  rw [perform, h.keeps.expire g]
  split_ifs with hg
  · rw [hg]
  · rw [Bool.not_eq_true] at hg
    rw [hg]

theorem Tracks.reply_receive (h : Tracks T ops s) : (s.bench.step .receive).1 =
    .delivered ((generations s.bench.mailbox.waiting).map fun g =>
      (g, s.bench.guard.isArmed && g == arms ops)) := by
  show (s.bench.perform .receive).1 = _
  rw [perform]
  simp only [Mailbox.take, h.keeps.offer (List.nodup_append.1 h.keeps.nodup).2.1]

/-- **One request accepts the latest deadline at most**, and only while it is in force. -/
theorem Tracks.accepted_request (h : Tracks T ops s) (op : Op) :
    (s.request op).accepted = s.accepted ∨ op.decides = false ∧
      s.bench.guard.isArmed = true ∧ (s.request op).accepted = s.accepted ++ [arms ops] := by
  have happend : (s.request op).accepted = s.accepted ++
      ((op.offers (s.bench.step op).1).filter (·.2)).map (·.1) := by
    simp [Service.request, Service.accepted]
  rw [happend]
  cases op with
  | expire g =>
    rw [h.reply_expire]
    by_cases hg : (s.bench.guard.isArmed && g == arms ops) = true
    · obtain ⟨harmed, rfl⟩ : s.bench.guard.isArmed = true ∧ g = arms ops := by simpa using hg
      exact .inr ⟨rfl, harmed, by simp [Op.offers, harmed]⟩
    · rw [Bool.not_eq_true] at hg
      exact .inl (by simp [Op.offers, hg])
  | receive =>
    have hwaiting : s.bench.mailbox.waiting.Nodup := (List.nodup_append.1 h.keeps.nodup).2.1
    rw [h.reply_receive, Op.offers, accepted_offers hwaiting]
    split_ifs with hhere
    · exact .inr ⟨rfl, hhere.1, rfl⟩
    · exact .inl (List.append_nil _)
  | _ => exact .inl (by simp [Op.offers])

/-- What was accepted stays accepted. -/
theorem accepted_prefix (T : ℕ) (before rest : List Op) :
    (served T before).accepted <+: (served T (before ++ rest)).accepted := by
  induction rest using List.reverseRecOn with
  | nil => simp
  | append_singleton rest op ih =>
    rw [← List.append_assoc, served_snoc]
    refine ih.trans ?_
    simp only [Service.accepted, Service.request, List.filter_append, List.map_append]
    exact List.prefix_append _ _

/-- Until the guard is armed again its deadline is the same. -/
theorem latest_since (T : ℕ) (before : List Op) (hsince : .arm ∉ since) :
    arms (before ++ .arm :: since) = arms before + 1 ∧
      due T (before ++ .arm :: since) = elapsed before + Clock.bounded T := by
  induction since using List.reverseRecOn with
  | nil => simp [arms_snoc, due_snoc]
  | append_singleton since op ih =>
    obtain ⟨hrest, hop⟩ : .arm ∉ since ∧ op ≠ .arm := by simpa [eq_comm] using hsince
    rw [← List.cons_append, ← List.append_assoc]
    obtain ⟨harms, hdue⟩ := latest_snoc T (before ++ .arm :: since) hop
    exact ⟨harms.trans (ih hrest).1, hdue.trans (ih hrest).2⟩

theorem wanted_since (before : List Op) (harm : .arm ∉ since) (hdisarm : .disarm ∉ since) :
    Wanted (before ++ .arm :: since) := by
  induction since using List.reverseRecOn with
  | nil => simp [wanted_snoc]
  | append_singleton since op ih =>
    simp only [List.mem_append, List.mem_singleton, not_or] at harm hdisarm
    rw [← List.cons_append, ← List.append_assoc, wanted_snoc]
    exact .inr ⟨Ne.symm hdisarm.2, ih harm.1 hdisarm.1⟩

/-- A deadline that was called off is not wanted until the next is set. -/
theorem not_wanted_since (harm : .arm ∉ since) : ¬Wanted (before ++ .disarm :: since) := by
  induction since using List.reverseRecOn with
  | nil => simp [wanted_snoc]
  | append_singleton since op ih =>
    simp only [List.mem_append, List.mem_singleton, not_or] at harm
    rw [← List.cons_append, ← List.append_assoc, wanted_snoc]
    rintro (hop | ⟨-, hwanted⟩)
    · exact harm.2 hop.symm
    · exact ih harm.1 hwanted

/-- **An earlier deadline is not accepted any more** once the guard was armed again or disarmed. -/
theorem accepted_after (h : Genuine T (before ++ op :: after)) (hop : op.decides = true)
    (hg : g ≤ arms before) (hmem : g ∈ (served T (before ++ op :: after)).accepted) :
    g ∈ (served T before).accepted := by
  induction after using List.reverseRecOn with
  | nil =>
    have hbefore := (settled_served (genuine_snoc.1 h).1).toTracks
    rw [served_snoc] at hmem
    rcases hbefore.accepted_request op with hsame | ⟨hother, -⟩
    · rwa [hsame] at hmem
    · cases hop.symm.trans hother
  | append_singleton after x ih =>
    rw [← List.cons_append, ← List.append_assoc] at h hmem
    obtain ⟨hrest, -⟩ := genuine_snoc.1 h
    have htracks := (settled_served hrest).toTracks
    rw [served_snoc] at hmem
    rcases htracks.accepted_request x with hsame | ⟨-, harmed, hnew⟩
    · exact ih hrest (hsame ▸ hmem)
    rw [hnew] at hmem
    rcases List.mem_append.1 hmem with hold | hlast
    · exact ih hrest hold
    -- The deadline that is accepted here is no earlier one.
    have hlatest : g = arms (before ++ op :: after) := List.mem_singleton.1 hlast
    have hcount : arms (before ++ op :: after) = arms before + arms (op :: after) := by
      simp [arms]
    have hnone : Op.arm ∉ op :: after := List.count_eq_zero.1 (by
      show arms (op :: after) = 0
      omega)
    have hdisarm : op = .disarm := by
      cases op <;> simp [Op.decides] at hop hnone ⊢
    subst hdisarm
    have hwanted := (htracks.keeps.armed.1 harmed).1
    exact absurd hwanted (not_wanted_since fun hafter => hnone (List.mem_cons_of_mem _ hafter))

/-- Before its time has come the latest deadline is in force, and nothing was accepted since it was
set. -/
theorem early_since (h : Genuine T (before ++ .arm :: since)) (harm : .arm ∉ since)
    (hdisarm : .disarm ∉ since)
    (hearly : elapsed (before ++ .arm :: since) < elapsed before + Clock.bounded T) :
    (served T (before ++ .arm :: since)).bench.guard.isArmed = true ∧
      .missed (arms before + 1) ∉ (served T (before ++ .arm :: since)).delivered ∧
      (served T (before ++ .arm :: since)).accepted = (served T before).accepted := by
  have hsettled := settled_served h
  obtain ⟨hlatest, hdue⟩ := latest_since T before harm
  set ops := before ++ .arm :: since with hops
  have hundelivered : .missed (arms ops) ∉ (served T ops).delivered := fun hmem => by
    have hprompt := hsettled.prompt hmem
    rw [hdue, hsettled.now] at hprompt
    omega
  have hunaccepted : arms ops ∉ (served T ops).accepted := fun hmem =>
    hundelivered (hsettled.keeps.sound _ hmem)
  refine ⟨hsettled.keeps.armed.2 ⟨wanted_since before harm hdisarm, hunaccepted⟩, hlatest ▸ hundelivered,
    ?_⟩
  -- What is accepted now was accepted before, and nothing is accepted twice.
  obtain ⟨new, hnew⟩ : (served T before).accepted <+: (served T ops).accepted :=
    accepted_prefix T before _
  have honce := hsettled.keeps.once
  rw [← hnew] at honce ⊢
  have hnil : new = [] := List.eq_nil_iff_forall_not_mem.2 fun g hg => by
    have hmem : g ∈ (served T ops).accepted := hnew ▸ List.mem_append_right _ hg
    have hold : g ∈ (served T before).accepted := by
      refine accepted_after h rfl ?_ hmem
      obtain ⟨g', hg', heq⟩ := hsettled.keeps.young _ (hsettled.keeps.sound g hmem)
      cases heq
      have hne : g ≠ arms ops := fun heq => hunaccepted (heq ▸ hmem)
      omega
    exact (List.disjoint_of_nodup_append honce) hold hg
  rw [hnil, List.append_nil]

/-- **One deadline is in force, and counts once.** A guard with timeout `T` is armed and disarmed,
its clock moves, its dispatcher may be shut down, and whatever is offered to it directly was
delivered by its timers before, however late. Then one timer waits at most. An offer is accepted if
the guard is armed and the offer is of the latest generation, and not otherwise; this holds for the
deadlines in the mailbox as well, and no generation is accepted twice. When the guard was armed, and
neither armed nor disarmed since, the deadline is in force and nothing is delivered or accepted until
the timeout, or the longest time that a timer can wait, has passed; then, unless the dispatcher was
shut down, the deadline was delivered, and it is in force until it is accepted. When the guard is
armed again or disarmed, no earlier deadline is accepted from then on, wherever it waits. An offer
that is turned down, whatever is offered, leaves the guard as it was. -/
theorem one_deadline_once (hgenuine : Genuine T ops) :
    let s := served T ops
    s.bench.clock.pending.length ≤ 1 ∧
    (∀ g, (s.bench.step (.expire g)).1 = .flag (s.bench.guard.isArmed && g == arms ops)) ∧
    (s.bench.step .receive).1 = .delivered ((generations s.bench.mailbox.waiting).map fun g =>
      (g, s.bench.guard.isArmed && g == arms ops)) ∧
    s.accepted.Nodup ∧
    (∀ before since, ops = before ++ .arm :: since → .arm ∉ since → .disarm ∉ since →
      (elapsed ops < elapsed before + Clock.bounded T →
        s.bench.guard.isArmed = true ∧ .missed (arms ops) ∉ s.delivered ∧
        s.accepted = (served T before).accepted) ∧
      (elapsed before + Clock.bounded T ≤ elapsed ops → .shutdown ∉ ops →
        .missed (arms ops) ∈ s.delivered ∧
        (s.bench.guard.isArmed = true ↔ arms ops ∉ s.accepted))) ∧
    (∀ before op after, ops = before ++ op :: after → op = .arm ∨ op = .disarm →
      ∀ g ≤ arms before, g ∈ s.accepted → g ∈ (served T before).accepted) ∧
    ∀ (guard : Guard) (g : ℕ), (guard.expire g).1 = false → (guard.expire g).2 = guard := by
  intro s
  have hsettled : Settled T ops s := settled_served hgenuine
  refine ⟨?_, hsettled.reply_expire, hsettled.reply_receive, hsettled.keeps.once, ?_, ?_, ?_⟩
  · rcases hsettled.timer with ⟨d, hpends⟩ | hrests
    · simp [hpends.pending]
    · simp [hrests.pending]
  · rintro before since rfl harm hdisarm
    obtain ⟨hlatest, hdue⟩ := latest_since T before harm
    have hwanted := wanted_since before harm hdisarm
    refine ⟨fun hearly => ?_, fun hlate hopen => ⟨?_, by simp [hsettled.keeps.armed, hwanted]⟩⟩
    · rw [hlatest]
      exact early_since hgenuine harm hdisarm hearly
    · by_contra hundelivered
      rcases hsettled.timer with ⟨d, hpends⟩ | hrests
      · -- A timer that waits is not due.
        have hahead := hsettled.ahead _ (hpends.pending ▸ List.mem_singleton_self _)
        have hreached : due T (before ++ .arm :: since) ≤ _ := hdue ▸ hlate
        exact absurd hreached (Nat.not_le_of_lt hahead)
      · by_cases harmed : s.bench.guard.isArmed = true
        · exact hundelivered (hrests.delivered harmed hopen)
        · have haccepted : arms (before ++ .arm :: since) ∈ s.accepted := by
            by_contra hnot
            exact harmed (hsettled.keeps.armed.2 ⟨hwanted, hnot⟩)
          exact hundelivered (hsettled.keeps.sound _ haccepted)
  · rintro before op after rfl hop g hg hmem
    have hdecides : op.decides = true := by rcases hop with rfl | rfl <;> rfl
    exact accepted_after hgenuine hdecides hg hmem
  · intro guard g hrefused
    unfold Guard.expire at hrefused ⊢
    cases harmed : guard.armed with
    | none => rfl
    | some d =>
      rw [harmed] at hrefused
      by_cases hd : (d.generation == g) = true
      · simp [hd] at hrefused
      · simp [hd]

/-- A deadline that waits in the mailbox is overtaken by the next one, which is accepted once. -/
theorem one_deadline_once_overtaken :
    let ops : List Op := [.arm, .advance 5, .arm, .expire 1, .advance 5, .expire 2]
    let s := served 5 ops
    Genuine 5 ops ∧ s.accepted = [2] ∧ s.bench.clock.pending.length ≤ 1 ∧
      (s.bench.step .receive).1 = .delivered [(1, false), (2, false)] ∧
      .missed 2 ∈ s.delivered ∧ s.bench.guard.isArmed = false := by
  intro ops s
  have hgenuine : Genuine 5 ops := by decide +kernel
  have haccepted : s.accepted = [2] := by decide +kernel
  have harms : arms ops = 2 := rfl
  have hwaiting : generations s.bench.mailbox.waiting = [1, 2] := by decide +kernel
  obtain ⟨hone, -, hreceive, -, hlatest, -, -⟩ := one_deadline_once hgenuine
  obtain ⟨-, hlate⟩ := hlatest [.arm, .advance 5] [.expire 1, .advance 5, .expire 2] rfl
    (by simp) (by simp)
  obtain ⟨hdelivered, hforce⟩ := hlate (by decide +kernel) (by decide)
  have hrests : s.bench.guard.isArmed = false := by
    rw [Bool.eq_false_iff]
    intro harmed
    have hnot := hforce.1 harmed
    rw [haccepted] at hnot
    simp [harms] at hnot
  refine ⟨hgenuine, haccepted, hone, ?_, harms ▸ hdelivered, hrests⟩
  rw [hreceive, hwaiting, hrests]
  rfl

/-- **No timer waits longer than thirty years**: a guard with a longer timeout is armed, and accepts
its deadline before the timeout has passed. -/
theorem accepted_before_timeout :
    let T := Clock.longest + 1
    let ops : List Op := [.arm, .advance Clock.longest, .receive]
    Genuine T ops ∧ elapsed ops < T ∧ (served T ops).accepted = [1] := by
  intro T ops
  exact ⟨by decide +kernel, by decide +kernel, by decide +kernel⟩

end GuardBench

end CdmaCall
