import Mockup.Client
import Mockup.Proofs.Number.Powers

namespace Mockup.Client

variable {c : Client} {url : String} {parameters : Fields} {reply : Reply}
  {before after : List Reply}

/-- A reply after which there is nothing to wait for: no connection, or an answer of a server that
is not busy. -/
def isDecisive : Reply → Bool
  | .failed _ => true
  | .answered status _ _ => !isTransient status

def requestCount (attempts : Nat) (replies : List Reply) : Nat :=
  let position := replies.findIdx isDecisive + 1
  if position ≤ attempts then position else attempts

def asked? : Reply → Option Number
  | .failed _ => none
  | .answered _ headers _ => retryAfter? headers

/-- The pause after a reply to the attempt of some number: the one asked for, and otherwise twice as
long after each attempt. -/
def Lasts (c : Client) (part : Reply × Nat) (seconds : Number) : Prop :=
  match asked? part.1 with
  | some pause => seconds = pause
  | none => c.backoff.mul (.int (2 ^ (part.2 - 1) : Nat)) = .ok seconds

/-- No pause is asked for, and a real would have to be doubled too often. -/
structure IsTooLong (c : Client) (part : Reply × Nat) : Prop where
  unasked : asked? part.1 = none
  isReal : c.backoff.IsReal
  late : 1024 < part.2

def conversation (url : String) (parameters : Fields) (pauses : List Number) : List Step :=
  pauses.flatMap (fun seconds => [.get url parameters, .sleep seconds]) ++ [.get url parameters]

/-- How a conversation ends with a reply: with a report that has no status if there is no connection
and the one of the reply if that is a refusal, and otherwise with the content. -/
def Ends (reply : Reply) (outcome : Except Fault Value) : Prop :=
  match reply with
  | .failed _ =>
    ∃ fault report, outcome = .error fault ∧ fault.report? = some report ∧ report.status = none
  | .answered status _ content =>
    if 400 ≤ status ∧ status ≤ 599 then
      ∃ fault report, outcome = .error fault ∧ fault.report? = some report ∧
        report.status = some status
    else outcome = content.elim (.error .unreadable) .ok

theorem exists_answered (h : isDecisive reply = false) :
    ∃ status headers content, reply = .answered status headers content ∧
      isTransient status = true := by
  cases reply with
  | failed reason => cases h
  | answered status headers content =>
      exact ⟨status, headers, content, rfl, by simpa [isDecisive] using h⟩

theorem pause_eq (c : Client) (status : Int) (headers : List (String × String))
    (content : Option Value) (attempt : Nat) :
    c.pause headers attempt = match asked? (.answered status headers content) with
      | some pause => .ok pause
      | none => c.backoff.mul (.int (2 ^ (attempt - 1) : Nat)) := rfl

theorem lasts_answered {status : Int} {headers : List (String × String)} {content : Option Value}
    {attempt : Nat} {seconds : Number} :
    c.Lasts (.answered status headers content, attempt) seconds ↔
      c.pause headers attempt = .ok seconds := by
  rw [Lasts, pause_eq c status headers content]
  cases asked? (.answered status headers content) with
  | some pause => simp [eq_comm]
  | none => rfl

theorem isTooLong_answered {status : Int} {headers : List (String × String)}
    {content : Option Value} {attempt : Nat} (hattempt : 1 ≤ attempt) :
    c.IsTooLong (.answered status headers content, attempt) ↔
      c.pause headers attempt = .error .tooLarge := by
  rw [pause_eq c status headers content]
  constructor
  · rintro ⟨hasked, hreal, hlate⟩
    rw [hasked]
    exact Number.mul_two_pow_eq_error_iff.mpr ⟨rfl, hreal, Nat.le_sub_one_of_lt hlate⟩
  · intro h
    split at h
    · cases h
    · next hasked =>
        obtain ⟨-, hreal, hlate⟩ := Number.mul_two_pow_eq_error_iff.mp h
        exact ⟨hasked, hreal, by simp only; omega⟩

/-- The pause after a reply is too long or has some length. -/
theorem exists_lasts (hreply : isDecisive reply = false) {attempt : Nat} (hattempt : 1 ≤ attempt)
    (h : ¬c.IsTooLong (reply, attempt)) : ∃ seconds, c.Lasts (reply, attempt) seconds := by
  obtain ⟨status, headers, content, rfl, -⟩ := exists_answered hreply
  simp only [lasts_answered]
  cases hpause : c.pause headers attempt with
  | ok seconds => exact ⟨seconds, rfl⟩
  | error fault =>
      rw [pause_eq c status headers content] at hpause
      split at hpause
      · cases hpause
      · next hasked =>
          obtain ⟨-, hreal, hlate⟩ := Number.mul_two_pow_eq_error_iff.mp hpause
          exact absurd ⟨hasked, hreal, by simp only; omega⟩ h

/-- After a reply that is not decisive comes a pause, if another attempt is left. -/
theorem attempts_cons {seconds : Number} {attempt : Nat} (hreply : isDecisive reply = false)
    (hpause : c.Lasts (reply, attempt) seconds) (left : Nat) (rest : List Reply) :
    c.attempts url parameters (left + 2) attempt (reply :: rest) =
      { c.attempts url parameters (left + 1) (attempt + 1) rest with
        log := .get url parameters :: .sleep seconds ::
          (c.attempts url parameters (left + 1) (attempt + 1) rest).log } := by
  obtain ⟨status, headers, content, rfl, htransient⟩ := exists_answered hreply
  rw [attempts, htransient, lasts_answered.mp hpause]
  rfl

theorem attempts_cons_of_isTooLong {attempt : Nat} (hreply : isDecisive reply = false)
    (hattempt : 1 ≤ attempt) (hpause : c.IsTooLong (reply, attempt)) (left : Nat)
    (rest : List Reply) :
    c.attempts url parameters (left + 2) attempt (reply :: rest) =
      ⟨conversation url parameters [], .error (.number .tooLarge), rest⟩ := by
  obtain ⟨status, headers, content, rfl, htransient⟩ := exists_answered hreply
  rw [attempts, htransient, (isTooLong_answered hattempt).mp hpause]
  rfl

theorem ends_settle (url : String) (status : Int) (headers : List (String × String))
    (content : Option Value) : Ends (.answered status headers content) (settle url status content) := by
  rw [Ends, settle.eq_def]
  have hrefusal : isRefusal status = true ↔ 400 ≤ status ∧ status ≤ 599 := by
    rw [isRefusal, Bool.and_eq_true, decide_eq_true_iff, decide_eq_true_iff]
    omega
  by_cases h : isRefusal status = true
  · rw [if_pos (hrefusal.mp h), if_pos h]
    exact ⟨_, _, rfl, rfl, rfl⟩
  · rw [if_neg (mt hrefusal.mpr h), if_neg h]
    cases content <;> rfl

/-- A decisive reply ends the conversation, and so does the last one. -/
theorem attempts_last (c : Client) (url : String) (parameters : Fields) {left : Nat}
    (h : isDecisive reply = true ∨ left = 0) (attempt : Nat) (rest : List Reply) :
    ∃ outcome, Ends reply outcome ∧ c.attempts url parameters (left + 1) attempt (reply :: rest) =
      ⟨conversation url parameters [], outcome, rest⟩ := by
  cases reply with
  | failed reason =>
      exact ⟨.error (.unreachable reason), ⟨_, _, rfl, rfl, rfl⟩, rfl⟩
  | answered status headers content =>
      refine ⟨_, ends_settle url status headers content, ?_⟩
      have hlast : ¬(isTransient status && left != 0) = true := by
        rcases h with h | rfl
        · simp [show isTransient status = false by simpa [isDecisive] using h]
        · simp
      rw [attempts, if_neg hlast]
      rfl

/-- Replies that are not decisive are passed with a request and a pause for each. -/
theorem attempts_append {pauses : List Number} {attempt : Nat}
    (hbefore : ∀ r ∈ before, isDecisive r = false)
    (hpauses : List.Forall₂ c.Lasts (before.zipIdx attempt) pauses) (left : Nat)
    (rest : List Reply) :
    c.attempts url parameters (before.length + left + 1) attempt (before ++ rest) =
      { c.attempts url parameters (left + 1) (attempt + before.length) rest with
        log := pauses.flatMap (fun seconds => [.get url parameters, .sleep seconds]) ++
          (c.attempts url parameters (left + 1) (attempt + before.length) rest).log } := by
  induction before generalizing attempt pauses with
  | nil =>
      cases hpauses
      simp
  | cons reply before ih =>
      rw [List.zipIdx_cons] at hpauses
      cases hpauses with
      | cons hpause hpauses =>
          obtain ⟨hreply, hbefore⟩ := List.forall_mem_cons.mp hbefore
          have hcount : (reply :: before).length + left + 1 = before.length + left + 2 := by
            rw [List.length_cons]
            omega
          have hlater : attempt + (reply :: before).length = attempt + 1 + before.length := by
            rw [List.length_cons]
            omega
          rw [hcount, hlater, List.cons_append, attempts_cons hreply hpause, ih hbefore hpauses]
          rfl

theorem attempts_ends (url : String) (parameters : Fields) {pauses : List Number} {left : Nat}
    (hbefore : ∀ r ∈ before, isDecisive r = false) (hlast : isDecisive reply = true ∨ left = 0)
    (hpauses : List.Forall₂ c.Lasts (before.zipIdx 1) pauses) (after : List Reply) :
    ∃ outcome, Ends reply outcome ∧
      c.attempts url parameters (before.length + left + 1) 1 (before ++ reply :: after) =
        ⟨conversation url parameters pauses, outcome, after⟩ := by
  obtain ⟨outcome, hends, hrun⟩ := attempts_last c url parameters hlast (1 + before.length) after
  refine ⟨outcome, hends, ?_⟩
  rw [attempts_append hbefore hpauses, hrun]
  rfl

theorem attempts_end_early (url : String) (parameters : Fields) {pauses : List Number}
    (hbefore : ∀ r ∈ before, isDecisive r = false) (hreply : isDecisive reply = false)
    (hpauses : List.Forall₂ c.Lasts (before.zipIdx 1) pauses)
    (hlong : c.IsTooLong (reply, before.length + 1)) (left : Nat) (after : List Reply) :
    c.attempts url parameters (before.length + (left + 1) + 1) 1 (before ++ reply :: after) =
      ⟨conversation url parameters pauses, .error (.number .tooLarge), after⟩ := by
  rw [Nat.add_comm] at hlong
  rw [attempts_append hbefore hpauses,
    attempts_cons_of_isTooLong hreply (Nat.le_add_right 1 _) hlong]
  rfl

theorem exists_pauses {attempt : Nat} (hattempt : 1 ≤ attempt)
    (hbefore : ∀ r ∈ before, isDecisive r = false)
    (h : ∀ part ∈ before.zipIdx attempt, ¬c.IsTooLong part) :
    ∃ pauses, List.Forall₂ c.Lasts (before.zipIdx attempt) pauses := by
  induction before generalizing attempt with
  | nil => exact ⟨[], .nil⟩
  | cons reply before ih =>
      obtain ⟨hreply, hbefore⟩ := List.forall_mem_cons.mp hbefore
      rw [List.zipIdx_cons] at h ⊢
      obtain ⟨hfirst, hrest⟩ := List.forall_mem_cons.mp h
      obtain ⟨seconds, hseconds⟩ := exists_lasts hreply hattempt hfirst
      obtain ⟨pauses, hpauses⟩ := ih (Nat.le_succ_of_le hattempt) hbefore hrest
      exact ⟨seconds :: pauses, .cons hseconds hpauses⟩

theorem requestCount_cons_of_isDecisive (h : isDecisive reply = true) (attempts : Nat)
    (rest : List Reply) : requestCount (attempts + 1) (reply :: rest) = 1 := by
  simp [requestCount, List.findIdx_cons, h]

theorem requestCount_one (replies : List Reply) : requestCount 1 replies = 1 := by
  simp only [requestCount]
  split <;> omega

theorem requestCount_cons (h : isDecisive reply = false) (attempts : Nat) (rest : List Reply) :
    requestCount (attempts + 2) (reply :: rest) = requestCount (attempts + 1) rest + 1 := by
  simp only [requestCount, List.findIdx_cons, h, cond_false]
  split_ifs <;> omega

/-- The reply to the last request is the first decisive one or the one to the last attempt. -/
theorem exists_last {attempts : Nat} {replies : List Reply} (hattempts : 1 ≤ attempts)
    (hreplies : attempts ≤ replies.length) :
    ∃ before reply after, replies = before ++ reply :: after ∧
      before.length + 1 = requestCount attempts replies ∧ (∀ r ∈ before, isDecisive r = false) ∧
      ∃ left, attempts = before.length + left + 1 ∧ (isDecisive reply = true ∨ left = 0) := by
  -- a reply that is not decisive takes one of the attempts, so the rest is split with one less
  induction replies generalizing attempts with
  | nil => exact absurd hreplies (Nat.not_le.mpr hattempts)
  | cons first rest ih =>
      obtain ⟨left, rfl⟩ := Nat.exists_eq_add_of_le' hattempts
      cases hfirst : isDecisive first with
      | true =>
          refine ⟨[], first, rest, rfl, ?_, by simp, left, by simp, .inl hfirst⟩
          rw [requestCount_cons_of_isDecisive hfirst]
          rfl
      | false =>
          cases left with
          | zero =>
              refine ⟨[], first, rest, rfl, ?_, by simp, 0, by simp, .inr rfl⟩
              rw [requestCount_one]
              rfl
          | succ left =>
              obtain ⟨before, reply, after, rfl, hcount, hbefore, left', hleft, hlast⟩ :=
                ih (Nat.le_add_left 1 left) (Nat.le_of_succ_le_succ hreplies)
              refine ⟨first :: before, reply, after, rfl, ?_, ?_, left', ?_, hlast⟩
              · rw [requestCount_cons hfirst, ← hcount]
                rfl
              · exact List.forall_mem_cons.mpr ⟨hfirst, hbefore⟩
              · rw [List.length_cons]
                omega

/-- Who has attempts left gets an answer or a report of another kind. -/
theorem outcome_attempts_ne_exhausted {left attempt : Nat} (replies : List Reply) (n : Int)
    (url' : String) : (c.attempts url parameters (left + 1) attempt replies).outcome ≠
      .error (.exhausted n url') := by
  induction replies generalizing left attempt with
  | nil => simp [attempts]
  | cons reply rest ih =>
      cases reply with
      | failed reason => simp [attempts]
      | answered status headers content =>
          rw [attempts]
          split
          · next h =>
              split
              · simp
              · obtain ⟨left, rfl⟩ : ∃ l, left = l + 1 :=
                  Nat.exists_eq_succ_of_ne_zero (by simp_all)
                exact ih
          · rw [settle.eq_def]
            split
            · simp
            · cases content <;> simp

/-- A client makes a request for each reply up to the last one, which is the first decisive one or
the one to the last attempt, with the pauses that the replies ask for between them, and the last
reply tells how it ends. It does not come to that if a pause is too long to be told in reals: then
the conversation ends before that pause. -/
theorem request_repeats (c : Client) (path : String) (parameters : Fields) (replies : List Reply)
    (hattempts : 1 ≤ c.maxAttempts) (hreplies : c.maxAttempts ≤ replies.length) :
    (∃ before reply after, replies = before ++ reply :: after ∧
      before.length + 1 = requestCount c.maxAttempts.toNat replies ∧
      ((∀ part ∈ before.zipIdx 1, ¬c.IsTooLong part) →
        ∃ pauses outcome, List.Forall₂ c.Lasts (before.zipIdx 1) pauses ∧ Ends reply outcome ∧
          c.request path parameters replies =
            ⟨conversation (base ++ path) parameters pauses, outcome, after⟩) ∧
      ∀ waited late more, before = waited ++ late :: more →
        (∀ part ∈ waited.zipIdx 1, ¬c.IsTooLong part) → c.IsTooLong (late, waited.length + 1) →
        ∃ pauses, List.Forall₂ c.Lasts (waited.zipIdx 1) pauses ∧
          c.request path parameters replies =
            ⟨conversation (base ++ path) parameters pauses, .error (.number .tooLarge),
              more ++ reply :: after⟩) ∧
    ∀ n url, (c.request path parameters replies).outcome ≠ .error (.exhausted n url) := by
  have hsome : 1 ≤ c.maxAttempts.toNat := by omega
  have henough : c.maxAttempts.toNat ≤ replies.length := by omega
  obtain ⟨before, reply, after, rfl, hcount, hbefore, left, hleft, hlast⟩ :=
    exists_last hsome henough
  refine ⟨⟨before, reply, after, rfl, hcount, fun hpauses => ?_, ?_⟩, fun n url => ?_⟩
  · obtain ⟨pauses, hpauses⟩ := exists_pauses (Nat.le_refl 1) hbefore hpauses
    obtain ⟨outcome, hends, hrun⟩ := attempts_ends (base ++ path) parameters hbefore hlast
      hpauses after
    exact ⟨pauses, outcome, hpauses, hends, by rw [request, hleft, hrun]⟩
  · rintro waited late more rfl hwaited hlong
    obtain ⟨hwaits, hrest⟩ := List.forall_mem_append.mp hbefore
    obtain ⟨hlate, -⟩ := List.forall_mem_cons.mp hrest
    obtain ⟨pauses, hpauses⟩ := exists_pauses (Nat.le_refl 1) hwaits hwaited
    refine ⟨pauses, hpauses, ?_⟩
    have hattempts : c.maxAttempts.toNat = waited.length + (more.length + left + 1) + 1 := by
      rw [hleft, List.length_append, List.length_cons]
      omega
    rw [request, hattempts, List.append_assoc, List.cons_append]
    exact attempts_end_early _ _ hwaits hlate hpauses hlong _ _
  · rw [request, hleft]
    exact outcome_attempts_ne_exhausted _ n url

def hastyClient : Client := { token := .text "t", maxAttempts := 4 }

/-- The server is busy twice and tells once for how long. Then there is no such file. -/
def busyReplies : List Reply :=
  [.answered 503 [] none, .answered 429 [("Retry-After", "7")] none, .answered 404 [] none,
    .answered 200 [] (some (.object []))]

theorem request_repeats_busyReplies :
    (1 ≤ hastyClient.maxAttempts ∧ hastyClient.maxAttempts ≤ busyReplies.length) ∧
    ∃ outcome, Ends (.answered 404 [] none) outcome ∧
      hastyClient.request "/files/KEY" [] busyReplies =
        ⟨conversation (base ++ "/files/KEY") [] [.real (.ofInt 1), .real (.ofInt 7)], outcome,
          [.answered 200 [] (some (.object []))]⟩ := by
  refine ⟨by decide, ?_⟩
  obtain ⟨⟨before, reply, after, hreplies, hcount, hrun, -⟩, -⟩ :=
    request_repeats hastyClient "/files/KEY" [] busyReplies (by decide) (by decide)
  have hsplit : [.answered 503 [] none, .answered 429 [("Retry-After", "7")] none] ++
      [.answered 404 [] none, .answered 200 [] (some (.object []))] = before ++ reply :: after :=
    hreplies
  obtain ⟨rfl, hrest⟩ := List.append_inj hsplit (Nat.succ.inj hcount).symm
  cases hrest
  obtain ⟨pauses, outcome, hpauses, hends, hrequest⟩ := hrun (by
    rintro part hpart ⟨-, -, hlate⟩
    have := List.snd_lt_add_of_mem_zipIdx hpart
    simp only [List.length_cons, List.length_nil] at this
    omega)
  refine ⟨outcome, hends, ?_⟩
  cases hpauses with
  | cons hfirst hpauses =>
      cases hpauses with
      | cons hsecond hpauses =>
          cases hpauses
          have hone : hastyClient.pause [] 1 = .ok (.real (.ofInt 1)) := by decide +kernel
          have hseven : hastyClient.pause [("Retry-After", "7")] 2 = .ok (.real (.ofInt 7)) := by
            decide +kernel
          cases hone.symm.trans (lasts_answered.mp hfirst)
          cases hseven.symm.trans (lasts_answered.mp hsecond)
          exact hrequest

def patientClient : Client :=
  { token := .text "t", maxAttempts := 1026, backoff := .real (.zero false) }

def lateReplies : List Reply :=
  List.replicate 1024 (.answered 500 [] none) ++
    [.answered 500 [] none, .answered 200 [] (some (.object []))]

/-- The last request is not made, because a number of seconds has to be doubled too often before. -/
theorem not_ends_lateReplies :
    requestCount 1026 lateReplies = 1026 ∧
      lateReplies[1025]? = some (.answered 200 [] (some (.object []))) ∧
      ¬Ends (.answered 200 [] (some (.object [])))
        (patientClient.request "/files/KEY" [] lateReplies).outcome := by
  have hbusy : ∀ r ∈ List.replicate 1024 (Reply.answered 500 [] none), isDecisive r = false :=
    fun r hr => List.eq_of_mem_replicate hr ▸ rfl
  obtain ⟨pauses, hpauses⟩ := exists_pauses (c := patientClient) (Nat.le_refl 1) hbusy (by
    rintro part hpart ⟨-, -, hlate⟩
    have := List.snd_lt_add_of_mem_zipIdx hpart
    rw [List.length_replicate] at this
    omega)
  have hlong : patientClient.IsTooLong (.answered 500 [] none,
      (List.replicate 1024 (Reply.answered 500 [] none)).length + 1) :=
    ⟨rfl, ⟨_, rfl⟩, by simp only [List.length_replicate]; decide⟩
  have hrun := attempts_end_early (base ++ "/files/KEY") [] hbusy rfl hpauses hlong 0
    [.answered 200 [] (some (.object []))]
  have houtcome : (patientClient.request "/files/KEY" [] lateReplies).outcome =
      .error (.number .tooLarge) := by
    rw [List.length_replicate] at hrun
    exact congrArg Exchange.outcome hrun
  refine ⟨by decide +kernel, ?_, by rw [houtcome]; simp [Ends]⟩
  rw [lateReplies, List.getElem?_append_right (by rw [List.length_replicate]; decide),
    List.length_replicate]
  rfl

end Mockup.Client
