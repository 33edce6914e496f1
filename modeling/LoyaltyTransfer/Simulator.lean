/-
# `LoyaltyTransfer.Simulator` — the partner's side

`partner_simulator/`.  The simulator serves one request up to its next `await`
at a time, so a POST that sleeps is overtaken by others, and by changes of the
partner's mode; the mode it started under stays its own:

    inTransit ─▶ stalling ─▶ answered             timeout: sleeps, then 504
        ├─▶ slowing ─▶ answered                   slow: sleeps, then looks and applies
        ├─▶ committed ─▶ answered                 timeout_after_commit: applies, then sleeps
        └─▶ answered                              everything else
    a request may also be dropped on its way, and an answer need never arrive

How long a sleep lasts is not part of the model: any action may come before its
end.

**Proved here.**  One credit per partner and reference, made by a POST that asked
for it; and a 200 or 201 shows the confirmation id of the credit on record
(`Simulator.Sound.step`).  Over whole runs the simulator is idempotent on the
reference (`reference_idempotent`): what is recorded stays, every success tells
the same, and a POST that asks for something else is turned away.
-/
import LoyaltyTransfer.Engine

namespace LoyaltyTransfer

/-! ## `state.py` -/

inductive Mode where
  | success
  | reject
  | error
  | unavailable
  | timeout
  | timeoutAfterCommit
  | slow
  | flaky
  deriving DecidableEq, Repr

structure PartnerConfig where
  mode : Mode := .success
  failureRate : ℚ := 1 / 2

structure Credit where
  partnerCode : String
  reference : String
  memberId : String
  points : Int
  confirmationId : String
  createdAt : String
  deriving DecidableEq

/-- The key of a credit in the simulator's dictionary. -/
def Credit.key (c : Credit) : String × String := (c.partnerCode, c.reference)

def Credit.sameRequest (c : Credit) (memberId : String) (points : Int) : Bool :=
  decide (c.memberId = memberId) && decide (c.points = points)

/-! ## Requests and answers -/

/-- The path and the body of a POST. -/
structure CreditRequest where
  partnerCode : String
  reference : String
  memberId : String
  points : Int
  deriving DecidableEq

/-- What the validation of path and body lets through. -/
def CreditRequest.valid (r : CreditRequest) : Bool :=
  programCodeFormat r.partnerCode && decide (1 ≤ r.reference.length) &&
    decide (r.reference.length ≤ 64) && decide (1 ≤ r.memberId.length) &&
    decide (r.memberId.length ≤ 100) && decide (0 < r.points)

/-- `CreditResponse.of`. -/
def Credit.response (c : Credit) (statusCode : Nat) : HttpResponse :=
  ⟨statusCode, some (.obj [("confirmation_id", .str c.confirmationId),
    ("status", .str "COMPLETED"), ("reference", .str c.reference),
    ("member_id", .str c.memberId), ("points", .int c.points),
    ("created_at", .str c.createdAt)])⟩

/-- `_failure`. -/
def failure (statusCode : Nat) (error message : String) : HttpResponse :=
  ⟨statusCode, some (.obj [("error", .str error), ("message", .str message)])⟩

/-- The framework's answer to a request that fails validation, its details left
out. -/
def unprocessable : HttpResponse := ⟨422, some (.obj [("detail", .arr [])])⟩

/-- `_infrastructure_failure`: failures before the partner processes anything. -/
def infrastructureFailure (config : PartnerConfig) (rand : ℚ) : Option HttpResponse :=
  match config.mode with
  | .error => some (failure 500 "INTERNAL_ERROR" "Simulated partner error")
  | .unavailable => some (failure 503 "UNAVAILABLE" "Simulated partner outage")
  | .flaky =>
      if rand < config.failureRate then
        some (failure 500 "INTERNAL_ERROR" "Simulated intermittent error")
      else none
  | _ => none

/-! ## Exchanges -/

/-- Where a POST stands. -/
inductive PostPc where
  | inTransit
  | stalling
  | slowing
  | committed (response : HttpResponse)
  | answered (response : HttpResponse)
  | dropped

structure Post where
  request : CreditRequest
  pc : PostPc

inductive GetPc where
  | inTransit
  | answered (response : HttpResponse)
  | dropped

structure Get where
  partnerCode : String
  reference : String
  pc : GetPc

structure Simulator where
  configs : List (String × PartnerConfig)
  credits : List Credit
  posts : List Post
  gets : List Get

/-- What a new credit is stamped with: its random part and the clock. -/
structure Stamp where
  uuid : String
  createdAt : String

def Simulator.configFor (s : Simulator) (partnerCode : String) : PartnerConfig :=
  (s.configs.lookup partnerCode).getD {}

def Simulator.find (s : Simulator) (partnerCode reference : String) : Option Credit :=
  Table.lookup Credit.key (partnerCode, reference) s.credits

/-- `self.credits[key] = credit`. -/
def Simulator.apply (s : Simulator) (credit : Credit) : List Credit :=
  if (s.find credit.partnerCode credit.reference).isSome then
    Table.replace Credit.key credit s.credits
  else s.credits ++ [credit]

def CreditRequest.credit (r : CreditRequest) (stamp : Stamp) : Credit where
  partnerCode := r.partnerCode
  reference := r.reference
  memberId := r.memberId
  points := r.points
  confirmationId := r.partnerCode ++ "-" ++ stamp.uuid
  createdAt := stamp.createdAt

/-- The answer leaves at once, or after the sleep of `timeout_after_commit`. -/
def answerPc (mode : Mode) (response : HttpResponse) : PostPc :=
  if mode = .timeoutAfterCommit then .committed response else .answered response

/-- `create_credit` from its look-up on: no `await` between looking and applying. -/
def Simulator.process (s : Simulator) (mode : Mode) (r : CreditRequest) (stamp : Stamp) :
    List Credit × PostPc :=
  match s.find r.partnerCode r.reference with
  | some existing =>
      if existing.sameRequest r.memberId r.points then
        (s.credits, answerPc mode (existing.response 200))
      else (s.credits, .answered
        (failure 409 "REFERENCE_CONFLICT" "Reference already used for a different credit"))
  | none =>
      if mode = .reject then (s.credits, .answered
        (failure 422 "MEMBER_NOT_FOUND" "Member account not found or not eligible"))
      else (s.apply (r.credit stamp), answerPc mode ((r.credit stamp).response 201))

/-- `create_credit` up to its first `await`. -/
def Simulator.createCredit (s : Simulator) (r : CreditRequest) (rand : ℚ) (stamp : Stamp) :
    List Credit × PostPc :=
  if r.valid then
    let config := s.configFor r.partnerCode
    match infrastructureFailure config rand with
    | some response => (s.credits, .answered response)
    | none =>
        match config.mode with
        | .timeout => (s.credits, .stalling)
        | .slow => (s.credits, .slowing)
        | mode => s.process mode r stamp
  else (s.credits, .answered unprocessable)

def Simulator.getCredit (s : Simulator) (partnerCode reference : String) (rand : ℚ) :
    HttpResponse :=
  if programCodeFormat partnerCode then
    match infrastructureFailure (s.configFor partnerCode) rand with
    | some response => response
    | none =>
        match s.find partnerCode reference with
        | some credit => credit.response 200
        | none => failure 404 "NOT_FOUND" "No credit with this reference"
  else unprocessable

inductive SimAction where
  | setConfig (partnerCode : String) (config : PartnerConfig)
  | post (request : CreditRequest)
  | deliver (n : Nat) (rand : ℚ) (stamp : Stamp)
  | wake (n : Nat) (stamp : Stamp)
  | drop (n : Nat)
  | get (partnerCode reference : String)
  | deliverGet (n : Nat) (rand : ℚ)
  | dropGet (n : Nat)

def simStep (s : Simulator) : SimAction → Option Simulator
  | .setConfig partnerCode config =>
      -- the newest entry is the one `configFor` finds
      some { s with configs := (partnerCode, config) :: s.configs }
  | .post request => some { s with posts := s.posts ++ [⟨request, .inTransit⟩] }
  | .deliver n rand stamp =>
      match s.posts[n]? with
      | some ⟨r, .inTransit⟩ =>
          let (credits, pc) := s.createCredit r rand stamp
          some { s with credits, posts := s.posts.set n ⟨r, pc⟩ }
      | _ => none
  | .wake n stamp =>
      match s.posts[n]? with
      | some ⟨r, .stalling⟩ =>
          let response := failure 504 "TIMEOUT" "Simulated timeout; nothing applied"
          some { s with posts := s.posts.set n ⟨r, .answered response⟩ }
      | some ⟨r, .slowing⟩ =>
          let (credits, pc) := s.process .slow r stamp
          some { s with credits, posts := s.posts.set n ⟨r, pc⟩ }
      | some ⟨r, .committed response⟩ =>
          some { s with posts := s.posts.set n ⟨r, .answered response⟩ }
      | _ => none
  | .drop n =>
      match s.posts[n]? with
      | some ⟨r, .inTransit⟩ => some { s with posts := s.posts.set n ⟨r, .dropped⟩ }
      | _ => none
  | .get partnerCode reference =>
      some { s with gets := s.gets ++ [⟨partnerCode, reference, .inTransit⟩] }
  | .deliverGet n rand =>
      match s.gets[n]? with
      | some ⟨partnerCode, reference, .inTransit⟩ =>
          let response := s.getCredit partnerCode reference rand
          some { s with gets := s.gets.set n ⟨partnerCode, reference, .answered response⟩ }
      | _ => none
  | .dropGet n =>
      match s.gets[n]? with
      | some ⟨partnerCode, reference, .inTransit⟩ =>
          some { s with gets := s.gets.set n ⟨partnerCode, reference, .dropped⟩ }
      | _ => none

/-! ## What the simulator does -/

/-- A success shows the credit on record. -/
def Shows (credits : List Credit) (partnerCode reference : String) (response : HttpResponse) :
    Prop :=
  response.statusCode = 200 ∨ response.statusCode = 201 →
    ∃ c ∈ credits, c.key = (partnerCode, reference) ∧ response = c.response response.statusCode

/-- The answer that is on its way, or will be after a sleep. -/
def PostPc.response? : PostPc → Option HttpResponse
  | .committed response | .answered response => some response
  | _ => none

/-- Serving `r` leaves the credits, or adds the one it asks for. -/
def Recorded (s : Simulator) (r : CreditRequest) (credits : List Credit) : Prop :=
  credits = s.credits ∨
    s.find r.partnerCode r.reference = none ∧ ∃ stamp, credits = s.credits ++ [r.credit stamp]

section

variable {s s' : Simulator} {r : CreditRequest} {mode : Mode} {stamp : Stamp} {rand : ℚ}
  {credits credits' : List Credit} {partnerCode reference : String} {response : HttpResponse}

theorem Shows.mono (h : Shows credits partnerCode reference response)
    (hsub : ∀ c ∈ credits, c ∈ credits') : Shows credits' partnerCode reference response := by
  intro hcode
  obtain ⟨c, hc, hkey, hresp⟩ := h hcode
  exact ⟨c, hsub c hc, hkey, hresp⟩

theorem shows_of_code (h : response.statusCode ≠ 200 ∧ response.statusCode ≠ 201) :
    Shows credits partnerCode reference response := by
  rintro (hcode | hcode)
  · exact absurd hcode h.1
  · exact absurd hcode h.2

theorem shows_credit {c : Credit} (hc : c ∈ credits) (hkey : c.key = (partnerCode, reference))
    (statusCode : Nat) : Shows credits partnerCode reference (c.response statusCode) :=
  fun _ => ⟨c, hc, hkey, rfl⟩

theorem Recorded.subset (h : Recorded s r credits) : ∀ c ∈ s.credits, c ∈ credits := by
  rcases h with rfl | ⟨-, stamp, rfl⟩
  · exact fun _ hc => hc
  · exact fun _ hc => List.mem_append_left _ hc

theorem answerPc_response : (answerPc mode response).response? = some response := by
  simp only [answerPc]
  split <;> rfl

theorem infrastructureFailure_shows {config : PartnerConfig}
    (h : infrastructureFailure config rand = some response) :
    Shows credits partnerCode reference response := by
  simp only [infrastructureFailure] at h
  split at h
  · cases h
    exact shows_of_code ⟨by decide, by decide⟩
  · cases h
    exact shows_of_code ⟨by decide, by decide⟩
  · split at h
    · cases h
      exact shows_of_code ⟨by decide, by decide⟩
    · cases h
  · cases h

/-- What serving a POST does: to the credits, and to its answer. -/
structure Serves (s : Simulator) (r : CreditRequest) (out : List Credit × PostPc) : Prop where
  recorded : Recorded s r out.1
  shows : ∀ response, out.2.response? = some response →
    Shows out.1 r.partnerCode r.reference response

/-- An answer that is no success, with the credits as they were. -/
theorem serves_failure (h : response.statusCode ≠ 200 ∧ response.statusCode ≠ 201) :
    Serves s r (s.credits, .answered response) where
  recorded := .inl rfl
  shows := by
    intro x hx
    cases hx
    exact shows_of_code h

theorem process_serves : Serves s r (s.process mode r stamp) := by
  simp only [Simulator.process]
  split
  · rename_i existing hfind
    split
    · refine ⟨.inl rfl, ?_⟩
      intro x hx
      rw [answerPc_response] at hx
      cases hx
      exact shows_credit (Table.lookup_mem hfind) (Table.lookup_key hfind) 200
    · exact serves_failure ⟨by decide, by decide⟩
  · rename_i hfind
    split
    · exact serves_failure ⟨by decide, by decide⟩
    · have happly : s.apply (r.credit stamp) = s.credits ++ [r.credit stamp] := by
        simp [Simulator.apply, CreditRequest.credit, hfind]
      rw [happly]
      refine ⟨.inr ⟨hfind, stamp, rfl⟩, ?_⟩
      intro x hx
      rw [answerPc_response] at hx
      cases hx
      exact shows_credit (List.mem_append_right _ (List.mem_singleton_self _)) rfl 201

theorem createCredit_serves : Serves s r (s.createCredit r rand stamp) := by
  simp only [Simulator.createCredit]
  split
  · split
    · rename_i response hfail
      refine ⟨.inl rfl, ?_⟩
      intro x hx
      cases hx
      exact infrastructureFailure_shows hfail
    · split
      · exact ⟨.inl rfl, by rintro _ ⟨⟩⟩
      · exact ⟨.inl rfl, by rintro _ ⟨⟩⟩
      · exact process_serves
  · exact serves_failure ⟨by decide, by decide⟩

theorem getCredit_shows :
    Shows s.credits partnerCode reference (s.getCredit partnerCode reference rand) := by
  simp only [Simulator.getCredit]
  split
  · split
    · rename_i response hfail
      exact infrastructureFailure_shows hfail
    · split
      · rename_i credit hfind
        exact shows_credit (Table.lookup_mem hfind) (Table.lookup_key hfind) 200
      · exact shows_of_code ⟨by decide, by decide⟩
  · exact shows_of_code ⟨by decide, by decide⟩

/-- A step of the simulator, inverted. -/
inductive SimMove (s : Simulator) : SimAction → Simulator → Prop
  | config {partnerCode : String} {config : PartnerConfig} :
      SimMove s (.setConfig partnerCode config)
        { s with configs := (partnerCode, config) :: s.configs }
  | posted {request : CreditRequest} :
      SimMove s (.post request) { s with posts := s.posts ++ [⟨request, .inTransit⟩] }
  | served {n : Nat} {a : SimAction} {post : Post} {out : List Credit × PostPc}
      (hpost : s.posts[n]? = some post) (hserves : Serves s post.request out) :
      SimMove s a { s with credits := out.1, posts := s.posts.set n { post with pc := out.2 } }
  | released {n : Nat} {a : SimAction} {post : Post} {response : HttpResponse}
      (hpost : s.posts[n]? = some post) (hpc : post.pc = .committed response) :
      SimMove s a { s with posts := s.posts.set n { post with pc := .answered response } }
  | asked {partnerCode reference : String} :
      SimMove s (.get partnerCode reference)
        { s with gets := s.gets ++ [⟨partnerCode, reference, .inTransit⟩] }
  | told {n : Nat} {a : SimAction} {g : Get} {pc : GetPc} (hget : s.gets[n]? = some g)
      (hshows : ∀ response, pc = .answered response →
        Shows s.credits g.partnerCode g.reference response) :
      SimMove s a { s with gets := s.gets.set n { g with pc } }

theorem simStep_move {a : SimAction} (h : simStep s a = some s') : SimMove s a s' := by
  cases a with
  | setConfig partnerCode config =>
      cases h
      exact .config
  | post request =>
      cases h
      exact .posted
  | deliver n rand stamp =>
      simp only [simStep] at h
      split at h
      · rename_i r hpost
        cases h
        exact .served hpost createCredit_serves
      · cases h
  | wake n stamp =>
      simp only [simStep] at h
      split at h
      · rename_i r hpost
        cases h
        exact .served hpost (serves_failure ⟨by decide, by decide⟩)
      · rename_i r hpost
        cases h
        exact .served hpost process_serves
      · rename_i r response hpost
        cases h
        exact .released hpost rfl
      · cases h
  | drop n =>
      simp only [simStep] at h
      split at h
      · rename_i r hpost
        cases h
        have hserves : Serves s r (s.credits, .dropped) := ⟨.inl rfl, by rintro _ ⟨⟩⟩
        exact .served hpost hserves
      · cases h
  | get partnerCode reference =>
      cases h
      exact .asked
  | deliverGet n rand =>
      simp only [simStep] at h
      split at h
      · rename_i partnerCode reference hget
        cases h
        refine .told hget ?_
        intro response hresp
        cases hresp
        exact getCredit_shows
      · cases h
  | dropGet n =>
      simp only [simStep] at h
      split at h
      · rename_i partnerCode reference hget
        cases h
        exact .told hget (by simp)
      · cases h

end

/-! ## The simulator's invariant -/

structure Simulator.Sound (s : Simulator) : Prop where
  unique : (s.credits.map Credit.key).Nodup
  made : ∀ c ∈ s.credits, ∃ post ∈ s.posts,
    post.request = ⟨c.partnerCode, c.reference, c.memberId, c.points⟩
  posts : ∀ post ∈ s.posts, ∀ response, post.pc.response? = some response →
    Shows s.credits post.request.partnerCode post.request.reference response
  gets : ∀ g ∈ s.gets, ∀ response, g.pc = .answered response →
    Shows s.credits g.partnerCode g.reference response

/-- The simulator before its first request. -/
def Simulator.initial : Simulator := ⟨[], [], [], []⟩

theorem Simulator.initial_sound : Simulator.initial.Sound where
  unique := List.nodup_nil
  made := by rintro _ ⟨⟩
  posts := by rintro _ ⟨⟩
  gets := by rintro _ ⟨⟩

section

variable {s s' : Simulator} {r : CreditRequest} {a : SimAction}

theorem Recorded.unique {credits : List Credit} (h : Recorded s r credits)
    (hs : (s.credits.map Credit.key).Nodup) : (credits.map Credit.key).Nodup := by
  rcases h with rfl | ⟨hfind, stamp, rfl⟩
  · exact hs
  · rw [List.map_append, List.nodup_append]
    refine ⟨hs, by simp, ?_⟩
    rintro k hk k' hk' rfl
    obtain ⟨c, hc, rfl⟩ := List.mem_map.mp hk
    have hkey : c.key = (r.credit stamp).key := by simpa using hk'
    exact Table.lookup_none hfind hc hkey

/-- The request of a post never changes. -/
theorem SimMove.post_persists (h : SimMove s a s') {n : Nat} {post : Post}
    (hpost : s.posts[n]? = some post) :
    ∃ post', s'.posts[n]? = some post' ∧ post'.request = post.request := by
  have hlt := (List.getElem?_eq_some_iff.mp hpost).1
  have hset : ∀ {m : Nat} {p : Post} {pc : PostPc}, s.posts[m]? = some p →
      ∃ post', (s.posts.set m { p with pc })[n]? = some post' ∧ post'.request = post.request := by
    intro m p pc hp
    by_cases hmn : m = n
    · subst hmn
      rw [hpost] at hp
      cases hp
      exact ⟨_, List.getElem?_set_self hlt, rfl⟩
    · exact ⟨post, by rw [List.getElem?_set_ne hmn]; exact hpost, rfl⟩
  cases h with
  | posted => exact ⟨post, by rw [List.getElem?_append_left hlt]; exact hpost, rfl⟩
  | served hp _ => exact hset hp
  | released hp _ => exact hset hp
  | _ => exact ⟨post, hpost, rfl⟩

/-- A post was there, or is the one just sent. -/
theorem SimMove.post_cases (h : SimMove s a s') {p : Post} (hp : p ∈ s'.posts) :
    (∃ post ∈ s.posts, post.request = p.request) ∨ a = .post p.request := by
  have hset : ∀ {m : Nat} {post : Post} {pc : PostPc}, s.posts[m]? = some post →
      p ∈ s.posts.set m { post with pc } → ∃ post ∈ s.posts, post.request = p.request := by
    intro m post pc hpost hp
    rcases List.mem_or_eq_of_mem_set hp with hp | rfl
    · exact ⟨p, hp, rfl⟩
    · exact ⟨post, List.mem_of_getElem? hpost, rfl⟩
  cases h with
  | posted =>
      rcases List.mem_append.mp hp with hp | hp
      · exact .inl ⟨p, hp, rfl⟩
      · rw [List.mem_singleton.mp hp]
        exact .inr rfl
  | served hpost _ => exact .inl (hset hpost hp)
  | released hpost _ => exact .inl (hset hpost hp)
  | _ => exact .inl ⟨p, hp, rfl⟩

theorem SimMove.get_persists (h : SimMove s a s') {n : Nat} {g : Get}
    (hg : s.gets[n]? = some g) :
    ∃ g', s'.gets[n]? = some g' ∧ g'.partnerCode = g.partnerCode ∧
      g'.reference = g.reference := by
  have hlt := (List.getElem?_eq_some_iff.mp hg).1
  cases h with
  | asked => exact ⟨g, by rw [List.getElem?_append_left hlt]; exact hg, rfl, rfl⟩
  | @told m _ g₀ pc hg₀ _ =>
      by_cases hmn : m = n
      · subst hmn
        rw [hg] at hg₀
        cases hg₀
        exact ⟨_, List.getElem?_set_self hlt, rfl, rfl⟩
      · exact ⟨g, by rw [List.getElem?_set_ne hmn]; exact hg, rfl, rfl⟩
  | _ => exact ⟨g, hg, rfl, rfl⟩

/-- A credit stays for good. -/
theorem SimMove.credits_subset (h : SimMove s a s') : ∀ c ∈ s.credits, c ∈ s'.credits := by
  cases h with
  | served _ hserves => exact hserves.recorded.subset
  | _ => exact fun _ hc => hc

theorem Simulator.Sound.step (h : s.Sound) (hm : SimMove s a s') : s'.Sound := by
  have hsub := hm.credits_subset
  -- what was shown is still shown
  have hold : ∀ p ∈ s.posts, ∀ response, p.pc.response? = some response →
      Shows s'.credits p.request.partnerCode p.request.reference response :=
    fun p hp response hresp => (h.posts p hp response hresp).mono hsub
  have hkept : ∀ c ∈ s.credits, ∃ post ∈ s'.posts,
      post.request = ⟨c.partnerCode, c.reference, c.memberId, c.points⟩ := by
    intro c hc
    obtain ⟨post, hpost, hreq⟩ := h.made c hc
    obtain ⟨n, hn⟩ := List.mem_iff_getElem?.mp hpost
    obtain ⟨post', hpost', hreq'⟩ := hm.post_persists hn
    exact ⟨post', List.mem_of_getElem? hpost', hreq'.trans hreq⟩
  have hgets : ∀ g ∈ s.gets, ∀ response, g.pc = .answered response →
      Shows s'.credits g.partnerCode g.reference response :=
    fun g hg response hresp => (h.gets g hg response hresp).mono hsub
  cases hm with
  | config => exact ⟨h.unique, hkept, hold, hgets⟩
  | posted =>
      refine ⟨h.unique, hkept, ?_, hgets⟩
      intro p hp response hresp
      rcases List.mem_append.mp hp with hp | hp
      · exact hold p hp response hresp
      · rw [List.mem_singleton.mp hp] at hresp
        cases hresp
  | @served n _ post out hpost hserves =>
      refine ⟨hserves.recorded.unique h.unique, ?_, ?_, hgets⟩
      · intro c hc
        rcases hserves.recorded with heq | ⟨-, stamp, heq⟩
        · exact hkept c (by rw [← heq]; exact hc)
        · have hc : c ∈ out.1 := hc
          rw [heq, List.mem_append, List.mem_singleton] at hc
          rcases hc with hc | rfl
          · exact hkept c hc
          · exact ⟨{ post with pc := out.2 },
              List.mem_set (List.getElem?_eq_some_iff.mp hpost).1 _, rfl⟩
      · intro p hp response hresp
        rcases List.mem_or_eq_of_mem_set hp with hp | rfl
        · exact hold p hp response hresp
        · exact hserves.shows response hresp
  | released hpost hpc =>
      refine ⟨h.unique, hkept, ?_, hgets⟩
      intro p hp response hresp
      rcases List.mem_or_eq_of_mem_set hp with hp | rfl
      · exact hold p hp response hresp
      · exact hold _ (List.mem_of_getElem? hpost) response (by rw [hpc]; exact hresp)
  | asked =>
      refine ⟨h.unique, hkept, hold, ?_⟩
      intro g hg response hresp
      rcases List.mem_append.mp hg with hg | hg
      · exact hgets g hg response hresp
      · rw [List.mem_singleton.mp hg] at hresp
        cases hresp
  | told hget hshows =>
      refine ⟨h.unique, hkept, hold, ?_⟩
      intro g hg response hresp
      rcases List.mem_or_eq_of_mem_set hg with hg | rfl
      · exact hgets g hg response hresp
      · exact hshows response hresp

end

/-! ## Idempotency on the reference -/

/-- The answer to a POST whose reference is taken: 409, or a failure of the
partner; one that fails validation does not come that far. -/
def TurnsAway (r : CreditRequest) (response : HttpResponse) : Prop :=
  response.statusCode = 409 ∨ (500 ≤ response.statusCode ∧ response.statusCode < 600) ∨
    (r.valid = false ∧ response = unprocessable)

/-- The POST has been neither applied nor replayed. -/
def PostPc.TurnedAway (r : CreditRequest) : PostPc → Prop
  | .inTransit | .stalling | .slowing | .dropped => True
  | .committed _ => False
  | .answered response => TurnsAway r response

/-- The POST asks for another credit under the reference of `c`. -/
def CreditRequest.Conflicts (r : CreditRequest) (c : Credit) : Prop :=
  (r.partnerCode, r.reference) = c.key ∧ c.sameRequest r.memberId r.points = false

/-- The handler of POST `n` runs. -/
def SimAction.Serves (n : Nat) : SimAction → Prop
  | .deliver m _ _ | .wake m _ => m = n
  | _ => False

/-- An answer given for the pair. -/
def Simulator.Answered (s : Simulator) (partnerCode reference : String)
    (response : HttpResponse) : Prop :=
  (∃ post ∈ s.posts, post.request.partnerCode = partnerCode ∧
    post.request.reference = reference ∧ post.pc = .answered response) ∨
  (∃ g ∈ s.gets, g.partnerCode = partnerCode ∧ g.reference = reference ∧
    g.pc = .answered response)

section

variable {s s' : Simulator} {r : CreditRequest} {c : Credit} {a : SimAction} {as : List SimAction}
  {n : Nat} {partnerCode reference : String} {response : HttpResponse}

theorem infrastructureFailure_turnsAway {config : PartnerConfig} {rand : ℚ}
    (h : infrastructureFailure config rand = some response) : TurnsAway r response := by
  refine .inr (.inl ?_)
  simp only [infrastructureFailure] at h
  split at h
  · cases h
    decide
  · cases h
    decide
  · split at h
    · cases h
      decide
    · cases h
  · cases h

theorem process_conflict (mode : Mode) (stamp : Stamp) (hr : r.Conflicts c)
    (hc : s.find c.partnerCode c.reference = some c) :
    (s.process mode r stamp).1 = s.credits ∧ (s.process mode r stamp).2.TurnedAway r := by
  obtain ⟨hkey, hother⟩ := hr
  obtain ⟨hcode, href⟩ := Prod.mk.inj hkey
  simp only [Simulator.process, hcode, href, hc, hother]
  exact ⟨rfl, .inl rfl⟩

theorem createCredit_conflict (rand : ℚ) (stamp : Stamp) (hr : r.Conflicts c)
    (hc : s.find c.partnerCode c.reference = some c) :
    (s.createCredit r rand stamp).1 = s.credits ∧
      (s.createCredit r rand stamp).2.TurnedAway r := by
  simp only [Simulator.createCredit]
  split
  · split
    · rename_i response hfail
      exact ⟨rfl, infrastructureFailure_turnsAway hfail⟩
    · split
      · exact ⟨rfl, trivial⟩
      · exact ⟨rfl, trivial⟩
      · exact process_conflict _ stamp hr hc
  · rename_i hvalid
    exact ⟨rfl, .inr (.inr ⟨by simpa using hvalid, rfl⟩)⟩

/-- The credit on record stays the one on record. -/
theorem Simulator.find_persists (hs' : s'.Sound) (hsub : ∀ c ∈ s.credits, c ∈ s'.credits)
    (hc : s.find partnerCode reference = some c) : s'.find partnerCode reference = some c := by
  have hmem := hsub c (Table.lookup_mem hc)
  rw [Simulator.find, ← Table.lookup_key hc]
  exact Table.lookup_of_mem hs'.unique hmem

/-- POST `n` asks for another credit than `c`, which is on record, and has been
turned away or will be. -/
structure Conflicting (c : Credit) (n : Nat) (s : Simulator) : Prop where
  sound : s.Sound
  recorded : s.find c.partnerCode c.reference = some c
  post : ∃ post, s.posts[n]? = some post ∧ post.request.Conflicts c ∧
    post.pc.TurnedAway post.request

theorem Conflicting.step (h : Conflicting c n s) (hstep : simStep s a = some s') :
    Conflicting c n s' ∧ (a.Serves n → s'.credits = s.credits) := by
  have hmove := simStep_move hstep
  have hsound := h.sound.step hmove
  have hfind := Simulator.find_persists hsound hmove.credits_subset h.recorded
  obtain ⟨post, hpost, hconflict, hpc⟩ := h.post
  have hlt := (List.getElem?_eq_some_iff.mp hpost).1
  have hkeeps : s'.posts[n]? = some post → Conflicting c n s' := fun hpost' =>
    ⟨hsound, hfind, post, hpost', hconflict, hpc⟩
  have hmoves : ∀ pc : PostPc, pc.TurnedAway post.request →
      s'.posts = s.posts.set n { post with pc } → Conflicting c n s' := by
    intro pc haway hposts
    refine ⟨hsound, hfind, { post with pc }, ?_, hconflict, haway⟩
    rw [hposts]
    exact List.getElem?_set_self hlt
  have hother : ∀ {m : Nat} {p : Post}, m ≠ n → s'.posts = s.posts.set m p →
      Conflicting c n s' := by
    intro m p hmn hposts
    refine hkeeps ?_
    rw [hposts, List.getElem?_set_ne hmn]
    exact hpost
  cases a with
  | setConfig partnerCode config =>
      cases hstep
      exact ⟨hkeeps hpost, by simp⟩
  | post request =>
      cases hstep
      exact ⟨hkeeps ((List.getElem?_append_left hlt).trans hpost), by simp⟩
  | get partnerCode reference =>
      cases hstep
      exact ⟨hkeeps hpost, by simp⟩
  | deliver m rand stamp =>
      simp only [simStep] at hstep
      split at hstep
      · rename_i r hm
        cases hstep
        by_cases hmn : m = n
        · subst hmn
          cases hpost.symm.trans hm
          obtain ⟨hcredits, haway⟩ := createCredit_conflict rand stamp hconflict h.recorded
          exact ⟨hmoves _ haway rfl, fun _ => hcredits⟩
        · exact ⟨hother hmn rfl, fun hn => absurd hn hmn⟩
      · cases hstep
  | wake m stamp =>
      simp only [simStep] at hstep
      split at hstep
      · rename_i r hm
        cases hstep
        by_cases hmn : m = n
        · subst hmn
          cases hpost.symm.trans hm
          have haway : TurnsAway r (failure 504 "TIMEOUT" "Simulated timeout; nothing applied") :=
            .inr (.inl (by decide))
          exact ⟨hmoves (.answered _) haway rfl, fun _ => rfl⟩
        · exact ⟨hother hmn rfl, fun _ => rfl⟩
      · rename_i r hm
        cases hstep
        by_cases hmn : m = n
        · subst hmn
          cases hpost.symm.trans hm
          obtain ⟨hcredits, haway⟩ := process_conflict .slow stamp hconflict h.recorded
          exact ⟨hmoves _ haway rfl, fun _ => hcredits⟩
        · exact ⟨hother hmn rfl, fun hn => absurd hn hmn⟩
      · rename_i r response hm
        cases hstep
        by_cases hmn : m = n
        · subst hmn
          cases hpost.symm.trans hm
          exact hpc.elim
        · exact ⟨hother hmn rfl, fun _ => rfl⟩
      · cases hstep
  | drop m =>
      simp only [simStep] at hstep
      split at hstep
      · rename_i r hm
        cases hstep
        by_cases hmn : m = n
        · subst hmn
          cases hpost.symm.trans hm
          exact ⟨hmoves .dropped trivial rfl, by simp⟩
        · exact ⟨hother hmn rfl, by simp⟩
      · cases hstep
  | deliverGet m rand =>
      simp only [simStep] at hstep
      split at hstep
      · cases hstep
        exact ⟨hkeeps hpost, by simp⟩
      · cases hstep
  | dropGet m =>
      simp only [simStep] at hstep
      split at hstep
      · cases hstep
        exact ⟨hkeeps hpost, by simp⟩
      · cases hstep

theorem sim_run_sound (h : Runs.run simStep Simulator.initial as = some s) : s.Sound :=
  Runs.run_invariant (fun _ _ _ hs hstep => hs.step (simStep_move hstep))
    Simulator.initial_sound h

theorem sim_run_credits (h : Runs.run simStep s as = some s') :
    ∀ c ∈ s.credits, c ∈ s'.credits :=
  Runs.run_invariant (I := fun x : Simulator => ∀ c ∈ s.credits, c ∈ x.credits)
    (fun _ _ _ hx hstep c hc => (simStep_move hstep).credits_subset c (hx c hc))
    (fun _ hc => hc) h

/-- A success for the pair tells the credit on record. -/
theorem Simulator.Sound.answered (h : s.Sound) (ha : s.Answered partnerCode reference response)
    (hcode : response.statusCode = 200 ∨ response.statusCode = 201) :
    ∃ c, s.find partnerCode reference = some c ∧ response = c.response response.statusCode := by
  have hshows : Shows s.credits partnerCode reference response := by
    rcases ha with ⟨post, hpost, rfl, rfl, hpc⟩ | ⟨g, hg, rfl, rfl, hpc⟩
    · exact h.posts post hpost response (by rw [hpc]; rfl)
    · exact h.gets g hg response hpc
  obtain ⟨c, hc, hkey, hresp⟩ := hshows hcode
  refine ⟨c, ?_, hresp⟩
  rw [Simulator.find, ← hkey]
  exact Table.lookup_of_mem h.unique hc

/-- A GET that answers 404 found nothing. -/
theorem getCredit_notFound {rand : ℚ}
    (h : (s.getCredit partnerCode reference rand).statusCode = 404) :
    s.find partnerCode reference = none := by
  simp only [Simulator.getCredit] at h
  split at h
  · split at h
    · rename_i response hfail
      rcases infrastructureFailure_turnsAway (r := ⟨"", "", "", 0⟩) hfail with h' | h' | h'
      · omega
      · omega
      · rw [h'.2] at h
        cases h
    · split at h
      · cases h
      · rename_i hfind
        exact hfind
  · cases h

/-- Along a run from a state with a credit on record, a POST that is still to be
served and asks for another credit. -/
theorem Conflicting.run (h : Conflicting c n s) (hrun : Runs.run simStep s as = some s') :
    Conflicting c n s' ∧ Runs.AllSteps simStep (fun x a => a.Serves n →
      ∀ x', simStep x a = some x' → x'.credits = x.credits) s as := by
  induction as generalizing s with
  | nil =>
      cases hrun
      exact ⟨h, trivial⟩
  | cons a as ih =>
      obtain ⟨s₁, h₁, h₂⟩ := Runs.run_cons_eq_some.mp hrun
      obtain ⟨hnext, -⟩ := h.step h₁
      refine ⟨(ih hnext h₂).1, fun hserves x' hx' => (h.step hx').2 hserves, ?_⟩
      intro s₂ h₃
      cases h₁.symm.trans h₃
      exact (ih hnext h₂).2

/-- The simulator over every run without reset: one credit per pair, for good;
every success for a pair tells that credit; a POST for another member or other
points that is served once the credit is on record is turned away and changes
nothing; a GET answers 404 when nothing is on record. -/
theorem reference_idempotent (h : Runs.run simStep Simulator.initial as = some s) :
    (s.credits.map Credit.key).Nodup ∧
    (∀ bs s', Runs.run simStep s bs = some s' → ∀ partnerCode reference c,
      s.find partnerCode reference = some c → s'.find partnerCode reference = some c) ∧
    (∀ partnerCode reference x y, s.Answered partnerCode reference x →
      s.Answered partnerCode reference y → x.statusCode = 200 ∨ x.statusCode = 201 →
      y.statusCode = 200 ∨ y.statusCode = 201 → x.body = y.body ∧
      ∃ c, s.find partnerCode reference = some c ∧ x = c.response x.statusCode) ∧
    (∀ c n post, s.find c.partnerCode c.reference = some c → s.posts[n]? = some post →
      post.pc = .inTransit ∨ post.pc = .stalling ∨ post.pc = .slowing →
      post.request.Conflicts c → ∀ bs s', Runs.run simStep s bs = some s' →
      (∀ post' response, s'.posts[n]? = some post' → post'.pc = .answered response →
        TurnsAway post'.request response) ∧
      Runs.AllSteps simStep (fun x a => a.Serves n →
        ∀ x', simStep x a = some x' → x'.credits = x.credits) s bs) ∧
    (∀ n rand g s', s.gets[n]? = some g → simStep s (.deliverGet n rand) = some s' →
      ∀ g' response, s'.gets[n]? = some g' → g'.pc = .answered response →
      response.statusCode = 404 → s.find g.partnerCode g.reference = none) := by
  have hs := sim_run_sound h
  refine ⟨hs.unique, ?_, ?_, ?_, ?_⟩
  · intro bs s' hbs partnerCode reference c hc
    exact Simulator.find_persists (sim_run_sound (Runs.run_append.mpr ⟨s, h, hbs⟩))
      (sim_run_credits hbs) hc
  · intro partnerCode reference x y hx hy hxcode hycode
    obtain ⟨c, hc, hxc⟩ := hs.answered hx hxcode
    obtain ⟨c', hc', hyc⟩ := hs.answered hy hycode
    cases hc.symm.trans hc'
    refine ⟨?_, c, hc, hxc⟩
    rw [hxc, hyc]
    rfl
  · intro c n post hc hpost hpc hconflict bs s' hbs
    have haway : post.pc.TurnedAway post.request := by
      rcases hpc with hpc | hpc | hpc <;> rw [hpc] <;> trivial
    obtain ⟨hend, hall⟩ := Conflicting.run ⟨hs, hc, post, hpost, hconflict, haway⟩ hbs
    refine ⟨?_, hall⟩
    intro post' response hpost' hresp
    obtain ⟨p, hp, -, hturned⟩ := hend.post
    cases hp.symm.trans hpost'
    rw [hresp] at hturned
    exact hturned
  · intro n rand g s' hg hstep g' response hg' hpc hcode
    simp only [simStep] at hstep
    split at hstep
    · rename_i partnerCode reference hget
      cases hstep
      cases hg.symm.trans hget
      rw [List.getElem?_set_self (List.getElem?_eq_some_iff.mp hg).1] at hg'
      cases hg'
      cases hpc
      exact getCredit_notFound hcode
    · cases hstep

end

/-- Two POSTs under one reference: the first, for fewer points, sleeps while the
second is applied. -/
def conflictRun : List SimAction :=
  [.setConfig "SKYWARD_MILES" { mode := .slow },
    .post ⟨"SKYWARD_MILES", "tr_1", "member-1", 500⟩, .deliver 0 0 ⟨"0", "t"⟩,
    .setConfig "SKYWARD_MILES" {}, .post ⟨"SKYWARD_MILES", "tr_1", "member-1", 1000⟩,
    .deliver 1 0 ⟨"1", "t"⟩]

def PostPc.isSlowing : PostPc → Bool
  | .slowing => true
  | _ => false

theorem PostPc.isSlowing_iff {pc : PostPc} : pc.isSlowing = true ↔ pc = .slowing := by
  cases pc <;> simp [isSlowing]

/-- The credit of the second. -/
def appliedCredit : Credit :=
  ⟨"SKYWARD_MILES", "tr_1", "member-1", 1000, "SKYWARD_MILES-1", "t"⟩

theorem reference_idempotent_conflictRun :
    ∃ s s', Runs.run simStep Simulator.initial conflictRun = some s ∧
      simStep s (.wake 0 ⟨"2", "t"⟩) = some s' ∧ s.credits.length = 1 ∧
      (∀ post response, s'.posts[0]? = some post → post.pc = .answered response →
        TurnsAway post.request response) ∧ s'.credits = s.credits := by
  have hany : (Runs.run simStep Simulator.initial conflictRun).any (fun s : Simulator =>
      decide (s.credits = [appliedCredit]) &&
      (s.posts[0]?).any (fun p => p.pc.isSlowing &&
        decide (p.request = ⟨"SKYWARD_MILES", "tr_1", "member-1", 500⟩)) &&
      (simStep s (.wake 0 ⟨"2", "t"⟩)).isSome) = true := by
    decide +kernel
  obtain ⟨s, hs, hall⟩ := (Option.any_eq_true _ _).mp hany
  simp only [Bool.and_eq_true, decide_eq_true_eq] at hall
  obtain ⟨⟨hcredits, hpost⟩, hwake⟩ := hall
  obtain ⟨s', hs'⟩ := Option.isSome_iff_exists.mp hwake
  obtain ⟨p, hp, hboth⟩ := (Option.any_eq_true _ _).mp hpost
  simp only [Bool.and_eq_true, decide_eq_true_eq, PostPc.isSlowing_iff] at hboth
  obtain ⟨hpc, hrequest⟩ := hboth
  have hfind : s.find "SKYWARD_MILES" "tr_1" = some appliedCredit := by
    rw [Simulator.find, hcredits]
    decide
  obtain ⟨-, -, -, hconflict, -⟩ := reference_idempotent hs
  have hconflicts : p.request.Conflicts appliedCredit := by
    rw [hrequest]
    exact ⟨rfl, by decide⟩
  obtain ⟨haway, hsteps⟩ := hconflict appliedCredit 0 p hfind hp (.inr (.inr hpc)) hconflicts
    [.wake 0 ⟨"2", "t"⟩] s' (Runs.run_cons_eq_some.mpr ⟨s', hs', rfl⟩)
  exact ⟨s, s', hs, hs', by rw [hcredits]; rfl, haway, hsteps.1 rfl s' hs'⟩

end LoyaltyTransfer
