import Mathlib.Logic.Basic

/-!
# Programs of calls that may be cut short

A program looks at what it can see of the state and issues calls one at a time;
each call answers with success or an error.  The process that runs it may die
before any of its calls: the calls made so far have had their effect, and the
rest never happen.

What the calls do is given by a machine.  `Machine.Returns` are the complete runs
of a program, `Machine.Stops` the runs cut short before a call, and
`Machine.Meets` is the weakest precondition for a postcondition on the complete
runs together with a condition on every point at which a run may be cut.
-/

/-- A program over views `V`, calls `C`, errors `ε` and results `α`. -/
inductive Prog (V C ε α : Type) where
  | done (result : Except ε α)
  | look (next : V → Prog V C ε α)
  | call (request : C) (next : Except ε Unit → Prog V C ε α)

namespace Prog

variable {V C ε α β σ : Type}

/-- Run one program after another; an error ends both. -/
def bind : Prog V C ε α → (α → Prog V C ε β) → Prog V C ε β
  | done (.ok a), f => f a
  | done (.error e), _ => done (.error e)
  | look next, f => look fun v => (next v).bind f
  | call c next, f => call c fun answer => (next answer).bind f

instance : Monad (Prog V C ε) where
  pure a := done (.ok a)
  bind := bind

instance : MonadLift (Except ε) (Prog V C ε) where
  monadLift := done

instance : MonadExcept ε (Prog V C ε) where
  throw e := done (.error e)
  tryCatch p _ := p

/-- What the program can see at this point. -/
def view : Prog V C ε V :=
  look fun v => done (.ok v)

def issue (c : C) : Prog V C ε Unit :=
  call c done

/-- A program that hands its error to the caller as a value. -/
def attempt : Prog V C ε α → Prog V C ε (Except ε α)
  | done result => done (.ok result)
  | look next => look fun v => (next v).attempt
  | call c next => call c fun answer => (next answer).attempt

/-- Every call the program can issue satisfies `P`. -/
def Issues (P : C → Prop) : Prog V C ε α → Prop
  | done _ => True
  | look next => ∀ v, (next v).Issues P
  | call c next => P c ∧ ∀ answer, (next answer).Issues P

/-- The first call of the program, if it makes one, satisfies `P`, and every call `R`. -/
def Starts (P R : C → Prop) : Prog V C ε α → Prop
  | done _ => True
  | look next => ∀ v, (next v).Starts P R
  | call c next => P c ∧ R c ∧ ∀ answer, (next answer).Issues R

/-- The run of a program on a deterministic machine whose state is all visible; a
call that fails changes nothing. -/
def run (exec : C → σ → Except ε σ) : Prog σ C ε α → σ → Except ε α × σ
  | done result, s => (result, s)
  | look next, s => (next s).run exec s
  | call c next, s =>
    match exec c s with
    | .ok t => (next (.ok ())).run exec t
    | .error e => (next (.error e)).run exec s

/-! ## The calls of a program -/

variable {P R : C → Prop} {p : Prog V C ε α} {f : α → Prog V C ε β}

theorem Issues.bind (hp : p.Issues P) (hf : ∀ a, (f a).Issues P) : (p >>= f).Issues P := by
  show (p.bind f).Issues P
  induction p with
  | done result =>
    cases result with
    | ok a => exact hf a
    | error => trivial
  | look next ih => exact fun v => ih v (hp v)
  | call c next ih => exact ⟨hp.1, fun answer => ih answer (hp.2 answer)⟩

theorem Issues.attempt (hp : p.Issues P) : p.attempt.Issues P := by
  induction p with
  | done => trivial
  | look next ih => exact fun v => ih v (hp v)
  | call c next ih => exact ⟨hp.1, fun answer => ih answer (hp.2 answer)⟩

theorem issues_issue {c : C} (h : P c) : (issue c : Prog V C ε Unit).Issues P :=
  ⟨h, fun _ => trivial⟩

theorem issues_forM {g : α → Prog V C ε PUnit} {l : List α} (h : ∀ a ∈ l, (g a).Issues P) :
    (forM l g : Prog V C ε PUnit).Issues P := by
  induction l with
  | nil => trivial
  | cons a l ih =>
    rw [List.forM_cons]
    exact (h a List.mem_cons_self).bind fun _ => ih fun b hb => h b (List.mem_cons_of_mem _ hb)

theorem Issues.mono {P' : C → Prop} (hp : p.Issues P) (h : ∀ c, P c → P' c) : p.Issues P' := by
  induction p with
  | done => trivial
  | look next ih => exact fun v => ih v (hp v)
  | call c next ih => exact ⟨h c hp.1, fun answer => ih answer (hp.2 answer)⟩

theorem Issues.starts (hp : p.Issues fun c => P c ∧ R c) : p.Starts P R := by
  induction p with
  | done => trivial
  | look next ih => exact fun v => ih v (hp v)
  | call => exact ⟨hp.1.1, hp.1.2, fun answer => (hp.2 answer).mono fun _ => And.right⟩

theorem Starts.issues (hp : p.Starts P R) : p.Issues R := by
  induction p with
  | done => trivial
  | look next ih => exact fun v => ih v (hp v)
  | call => exact hp.2

theorem Starts.bind (hp : p.Starts P R) (hf : ∀ a, (f a).Starts P R) : (p >>= f).Starts P R := by
  show (p.bind f).Starts P R
  induction p with
  | done result =>
    cases result with
    | ok a => exact hf a
    | error => trivial
  | look next ih => exact fun v => ih v (hp v)
  | call => exact ⟨hp.1, hp.2.1, fun answer => (hp.2.2 answer).bind fun a => (hf a).issues⟩

theorem starts_view : (view : Prog V C ε V).Starts P R := fun _ => trivial

theorem starts_lift (x : Except ε α) : (liftM x : Prog V C ε α).Starts P R := trivial

end Prog

/-- What a program sees of a state and what its calls may do to it. -/
structure Machine (σ V C ε : Type) where
  view : σ → V
  Step : σ → C → Except ε Unit → σ → Prop

namespace Machine

variable {σ V C ε α β : Type} {M : Machine σ V C ε}

/-- The machine of a deterministic call, its whole state visible. -/
def ofExec (exec : C → σ → Except ε σ) : Machine σ σ C ε where
  view := id
  Step s c answer s' :=
    match exec c s with
    | .ok t => answer = .ok () ∧ s' = t
    | .error e => answer = .error e ∧ s' = s

/-- The same machine with a record of the calls issued. -/
def logged (M : Machine σ V C ε) : Machine (σ × List C) V C ε where
  view s := M.view s.1
  Step s c answer s' := M.Step s.1 c answer s'.1 ∧ s'.2 = s.2 ++ [c]

/-- A complete run of the program from `s` ends in `s'` with this result. -/
def Returns (M : Machine σ V C ε) : Prog V C ε α → σ → Except ε α → σ → Prop
  | .done result, s, result', s' => result' = result ∧ s' = s
  | .look next, s, result, s' => M.Returns (next (M.view s)) s result s'
  | .call c next, s, result, s' =>
    ∃ answer t, M.Step s c answer t ∧ M.Returns (next answer) t result s'

/-- A run of the program from `s` may be cut in `s'`, with the call `c` next. -/
def Stops (M : Machine σ V C ε) : Prog V C ε α → σ → σ → C → Prop
  | .done _, _, _, _ => False
  | .look next, s, s', c' => M.Stops (next (M.view s)) s s' c'
  | .call c next, s, s', c' =>
    s' = s ∧ c' = c ∨ ∃ answer t, M.Step s c answer t ∧ M.Stops (next answer) t s' c'

/-- The process running the program from `s` may die leaving `s'`: before the call
`next`, or after its last call. -/
def Leaves (M : Machine σ V C ε) (p : Prog V C ε α) (s s' : σ) : Option C → Prop
  | some c => M.Stops p s s' c
  | none => ∃ result, M.Returns p s result s'

/-- Every complete run from `s` ends as `Q` says, and every point at which a run
may be cut is as `I` says. -/
def Meets (M : Machine σ V C ε) (Q : Except ε α → σ → Prop) (I : σ → C → Prop) :
    Prog V C ε α → σ → Prop
  | .done result, s => Q result s
  | .look next, s => M.Meets Q I (next (M.view s)) s
  | .call c next, s => I s c ∧ ∀ answer t, M.Step s c answer t → M.Meets Q I (next answer) t

/-- The postcondition of a program that another follows: its error is the error of
both. -/
def Then (Q : Except ε β → σ → Prop) (next : α → σ → Prop) : Except ε α → σ → Prop
  | .ok a, s => next a s
  | .error e, s => Q (.error e) s

variable {Q Q' : Except ε α → σ → Prop} {I I' : σ → C → Prop} {p : Prog V C ε α} {s s' : σ} {c : C}
  {J R : σ → Prop} {f : α → Prog V C ε β} {a : α} {t : σ} {e : ε} {r x : Except ε α}
  {exec : C → σ → Except ε σ}

@[simp] theorem then_ok (Q : Except ε β → σ → Prop) (next : α → σ → Prop) (a : α) (s : σ) :
    Then Q next (.ok a) s = next a s := rfl

@[simp] theorem then_error (Q : Except ε β → σ → Prop) (next : α → σ → Prop) (e : ε) (s : σ) :
    Then Q next (.error e) s = Q (.error e) s := rfl

/-! ## What `Meets` says -/

theorem Meets.returns {result : Except ε α} (h : M.Meets Q I p s)
    (hret : M.Returns p s result s') : Q result s' := by
  induction p generalizing s with
  | done =>
    obtain ⟨rfl, rfl⟩ := hret
    exact h
  | look next ih => exact ih _ h hret
  | call c next ih =>
    obtain ⟨answer, t, hstep, hret⟩ := hret
    exact ih answer (h.2 answer t hstep) hret

theorem Meets.stops (h : M.Meets Q I p s) (hstop : M.Stops p s s' c) : I s' c := by
  induction p generalizing s with
  | done => exact hstop.elim
  | look next ih => exact ih _ h hstop
  | call c' next ih =>
    rcases hstop with ⟨rfl, rfl⟩ | ⟨answer, t, hstep, hstop⟩
    · exact h.1
    · exact ih answer (h.2 answer t hstep) hstop

theorem Meets.mono (h : M.Meets Q I p s) (hQ : ∀ r s, Q r s → Q' r s)
    (hI : ∀ s c, I s c → I' s c) : M.Meets Q' I' p s := by
  induction p generalizing s with
  | done r => exact hQ r s h
  | look next ih => exact ih _ h
  | call c next ih => exact ⟨hI s c h.1, fun answer t hstep => ih answer (h.2 answer t hstep)⟩

theorem Meets.post (h : M.Meets Q I p s) (hQ : ∀ r s, Q r s → Q' r s) : M.Meets Q' I p s :=
  h.mono hQ fun _ _ h => h

theorem Meets.and (h : M.Meets Q I p s) (h' : M.Meets Q' I' p s) :
    M.Meets (fun r s => Q r s ∧ Q' r s) (fun s c => I s c ∧ I' s c) p s := by
  induction p generalizing s with
  | done => exact ⟨h, h'⟩
  | look next ih => exact ih _ h h'
  | call c next ih =>
    exact ⟨⟨h.1, h'.1⟩, fun answer t hstep => ih answer (h.2 answer t hstep) (h'.2 answer t hstep)⟩

/-- What every call of the program keeps holds wherever it is cut and where it ends. -/
theorem meets_of_issues {P : C → Prop} (hp : p.Issues P)
    (hJ : ∀ s c answer t, P c → J s → M.Step s c answer t → J t) (hs : J s) :
    M.Meets (fun _ => J) (fun s c => J s ∧ P c) p s := by
  induction p generalizing s with
  | done => exact hs
  | look next ih => exact ih _ (hp _) hs
  | call c next ih =>
    exact ⟨⟨hs, hp.1⟩, fun answer t hstep => ih answer (hp.2 answer)
      (hJ s c answer t hp.1 hs hstep)⟩

theorem meets_of_step (hJ : ∀ s c answer t, J s → M.Step s c answer t → J t) (hs : J s) :
    M.Meets (fun _ => J) (fun s _ => J s) p s := by
  induction p generalizing s with
  | done => exact hs
  | look next ih => exact ih _ hs
  | call c next ih => exact ⟨hs, fun answer t hstep => ih answer (hJ s c answer t hs hstep)⟩

theorem Meets.leaves {next : Option C} (h : M.Meets (fun _ => J) (fun s _ => J s) p s)
    (hleaves : M.Leaves p s s' next) : J s' := by
  cases next with
  | none =>
    obtain ⟨result, hreturns⟩ := hleaves
    exact h.returns hreturns
  | some => exact h.stops hleaves

/-! ## Rules for the shapes of a program -/

theorem meets_bind (p : Prog V C ε α) (f : α → Prog V C ε β) (Q : Except ε β → σ → Prop)
    (I : σ → C → Prop) (s : σ) :
    M.Meets Q I (p >>= f) s ↔ M.Meets (Then Q fun a t => M.Meets Q I (f a) t) I p s := by
  show M.Meets Q I (p.bind f) s ↔ _
  induction p generalizing s with
  | done r =>
    cases r with
    | ok | error => exact Iff.rfl
  | look next ih => exact ih _ s
  | call c next ih =>
    simp only [Prog.bind, Meets]
    exact and_congr_right fun _ => forall_congr' fun answer => forall_congr' fun t =>
      imp_congr_right fun _ => ih answer t

theorem meets_map (p : Prog V C ε α) (f : α → β) (Q : Except ε β → σ → Prop)
    (I : σ → C → Prop) (s : σ) :
    M.Meets Q I (f <$> p) s ↔ M.Meets (Then Q fun a t => Q (.ok (f a)) t) I p s :=
  meets_bind p (fun a => pure (f a)) Q I s

/-- What says nothing about the result does not mind what is made of it. -/
theorem Meets.map {P : σ → Prop} {f : α → β} (h : M.Meets (fun _ => P) I p s) :
    M.Meets (fun _ => P) I (f <$> p) s := by
  rw [meets_map]
  refine h.post ?_
  rintro (e | a) t ht <;> exact ht

theorem meets_attempt (p : Prog V C ε α) (Q : Except ε (Except ε α) → σ → Prop)
    (I : σ → C → Prop) (s : σ) :
    M.Meets Q I p.attempt s ↔ M.Meets (fun r t => Q (.ok r) t) I p s := by
  induction p generalizing s with
  | done => exact Iff.rfl
  | look next ih => exact ih _ s
  | call c next ih =>
    simp only [Prog.attempt, Meets]
    exact and_congr_right fun _ => forall_congr' fun answer => forall_congr' fun t =>
      imp_congr_right fun _ => ih answer t

@[simp] theorem meets_lift (x : Except ε α) (Q : Except ε α → σ → Prop) (I : σ → C → Prop)
    (s : σ) : M.Meets Q I (liftM x : Prog V C ε α) s ↔ Q x s := Iff.rfl

theorem meets_issue (c : C) (Q : Except ε Unit → σ → Prop) (I : σ → C → Prop) (s : σ) :
    M.Meets Q I (Prog.issue c) s ↔ I s c ∧ ∀ answer t, M.Step s c answer t → Q answer t := Iff.rfl

theorem Meets.bind {Q : Except ε β → σ → Prop} (hp : M.Meets Q' I' p s) (hI : ∀ t c, I' t c → I t c)
    (herror : ∀ e t, Q' (.error e) t → Q (.error e) t)
    (hok : ∀ a t, Q' (.ok a) t → M.Meets Q I (f a) t) : M.Meets Q I (p >>= f) s := by
  refine (meets_bind ..).mpr (hp.mono ?_ hI)
  rintro (e | a) t h
  · exact herror e t h
  · exact hok a t h

theorem Meets.bind_ok {Q : Except ε β → σ → Prop} (hp : M.Meets (fun r t => r = .ok a ∧ R t) I p s)
    (hok : ∀ t, R t → M.Meets Q I (f a) t) : M.Meets Q I (p >>= f) s :=
  hp.bind (fun _ _ h => h) (fun _ _ h => nomatch h.1) fun _ t h => Except.ok.inj h.1 ▸ hok t h.2

theorem Meets.attempt_ok {Q : Except ε β → σ → Prop} {f : Except ε α → Prog V C ε β}
    (hp : M.Meets (fun r t => r = .ok a ∧ R t) I p s) (hok : ∀ t, R t → M.Meets Q I (f (.ok a)) t) :
    M.Meets Q I (p.attempt >>= f) s := by
  rw [meets_bind, meets_attempt]
  exact hp.mono (fun _ t h => h.1 ▸ hok t h.2) fun _ _ h => h

/-- The rule for a loop over a list: `J rest` holds before the elements `rest` have
had their turn. -/
theorem meets_forM {Q : Except ε PUnit → σ → Prop} {J : List α → σ → Prop}
    {f : α → Prog V C ε PUnit}
    (hstep : ∀ a rest s, J (a :: rest) s → M.Meets (Then Q fun _ => J rest) I (f a) s)
    (hend : ∀ s, J [] s → Q (.ok ()) s) (l : List α) (hl : J l s) : M.Meets Q I (forM l f) s := by
  induction l generalizing s with
  | nil => exact hend s hl
  | cons a rest ih =>
    rw [List.forM_cons]
    exact (hstep a rest s hl).bind (fun _ _ h => h) (fun _ _ h => h) fun _ _ h => ih h

/-- The postcondition of a program that says nothing about its errors. -/
def OnOk (P : α → σ → Prop) : Except ε α → σ → Prop
  | .ok a, s => P a s
  | .error _, _ => True

theorem Meets.bind_onOk {P : α → σ → Prop} {R : β → σ → Prop} (hp : M.Meets (OnOk P) I p s)
    (hf : ∀ a t, P a t → M.Meets (OnOk R) I (f a) t) : M.Meets (OnOk R) I (p >>= f) s :=
  hp.bind (fun _ _ h => h) (fun _ _ h => h) hf

/-! ## Runs of a program followed by another -/

theorem meets_self (M : Machine σ V C ε) (p : Prog V C ε α) (s : σ) :
    M.Meets (M.Returns p s) (M.Stops p s) p s := by
  induction p generalizing s with
  | done => exact ⟨rfl, rfl⟩
  | look next ih => exact ih _ s
  | call c next ih =>
    refine ⟨.inl ⟨rfl, rfl⟩, fun answer t hstep => ?_⟩
    exact (ih answer t).mono (fun _ _ h => ⟨answer, t, hstep, h⟩)
      fun _ _ h => .inr ⟨answer, t, hstep, h⟩

theorem meets_self_bind (p : Prog V C ε α) (f : α → Prog V C ε β) (s : σ) :
    M.Meets (Then (M.Returns (p >>= f) s) fun a t =>
      M.Meets (M.Returns (p >>= f) s) (M.Stops (p >>= f) s) (f a) t) (M.Stops (p >>= f) s) p s :=
  (meets_bind ..).mp (meets_self M (p >>= f) s)

theorem Returns.bind {r : Except ε β} (h : M.Returns p s (.ok a) t) (h' : M.Returns (f a) t r s') :
    M.Returns (p >>= f) s r s' :=
  Meets.returns ((meets_self_bind p f s).returns h) h'

theorem Returns.bind_error (h : M.Returns p s (.error e) s') :
    M.Returns (p >>= f) s (.error e) s' :=
  (meets_self_bind p f s).returns h

theorem Returns.stops (h : M.Returns p s (.ok a) t) (h' : M.Stops (f a) t s' c) :
    M.Stops (p >>= f) s s' c :=
  Meets.stops ((meets_self_bind p f s).returns h) h'

theorem Stops.bind (h : M.Stops p s s' c) : M.Stops (p >>= f) s s' c :=
  (meets_self_bind p f s).stops h

theorem Stops.map {f : α → β} (h : M.Stops p s s' c) : M.Stops (f <$> p) s s' c :=
  h.bind

theorem Returns.attempt (h : M.Returns p s r s') : M.Returns p.attempt s (.ok r) s' :=
  ((meets_attempt ..).mp (meets_self M p.attempt s)).returns h

theorem Stops.attempt (h : M.Stops p s s' c) : M.Stops p.attempt s s' c :=
  ((meets_attempt ..).mp (meets_self M p.attempt s)).stops h

/-- A program returns if each of its calls can be answered, and with what some answer to each
call keeps. -/
theorem exists_returns (hstep : ∀ s c, J s → ∃ answer t, M.Step s c answer t ∧ J t)
    (p : Prog V C ε α) (hs : J s) : ∃ result s', M.Returns p s result s' ∧ J s' := by
  induction p generalizing s with
  | done result => exact ⟨result, s, ⟨rfl, rfl⟩, hs⟩
  | look next ih => exact ih _ hs
  | call c next ih =>
    obtain ⟨answer, t, h, ht⟩ := hstep s c hs
    obtain ⟨result, s', hreturns, hs'⟩ := ih answer ht
    exact ⟨result, s', ⟨answer, t, h, hreturns⟩, hs'⟩

theorem returns_view : M.Returns Prog.view s (.ok (M.view s)) s := ⟨rfl, rfl⟩

theorem returns_lift (h : x = r) : M.Returns (liftM x : Prog V C ε α) s r s := ⟨h.symm, rfl⟩

theorem returns_issue {answer : Except ε Unit} (h : M.Step s c answer s') :
    M.Returns (Prog.issue c) s answer s' := ⟨answer, s', h, rfl, rfl⟩

theorem stops_issue : M.Stops (Prog.issue c) s s c := .inl ⟨rfl, rfl⟩

/-- A run may be cut before its first call. -/
theorem exists_leaves_of_starts {P R : C → Prop} (hp : p.Starts P R) (s : σ) :
    ∃ next, M.Leaves p s s next ∧ ∀ c, next = some c → P c := by
  induction p with
  | done result => exact ⟨none, ⟨result, rfl, rfl⟩, nofun⟩
  | look next ih =>
    obtain ⟨c | c, h⟩ := ih (M.view s) (hp _)
    · exact ⟨none, h⟩
    · exact ⟨some c, h⟩
  | call c =>
    refine ⟨some c, .inl ⟨rfl, rfl⟩, ?_⟩
    rintro _ ⟨⟩
    exact hp.1

theorem starts_true (p : Prog V C ε α) : p.Starts (fun _ => True) fun _ => True := by
  refine Prog.Issues.starts ?_
  induction p with
  | done => trivial
  | look next ih => exact ih
  | call c next ih => exact ⟨⟨trivial, trivial⟩, ih⟩

theorem exists_leaves_self (M : Machine σ V C ε) (p : Prog V C ε α) (s : σ) :
    ∃ next, M.Leaves p s s next :=
  (exists_leaves_of_starts (starts_true p) s).imp fun _ h => h.1

/-- A machine that can follow every step of another has the runs of the other. -/
theorem Returns.simulate {τ : Type} {N : Machine τ V C ε} {R : σ → τ → Prop} {t : τ}
    (hview : ∀ s t, R s t → N.view t = M.view s)
    (hstep : ∀ s t c answer s', R s t → M.Step s c answer s' → ∃ t', N.Step t c answer t' ∧ R s' t')
    (h : M.Returns p s r s') (ht : R s t) : ∃ t', N.Returns p t r t' ∧ R s' t' := by
  induction p generalizing s t with
  | done =>
    obtain ⟨rfl, rfl⟩ := h
    exact ⟨t, ⟨rfl, rfl⟩, ht⟩
  | look next ih =>
    rw [Returns, ← hview s t ht] at h
    exact ih _ h ht
  | call c next ih =>
    obtain ⟨answer, s1, hs1, h⟩ := h
    obtain ⟨t1, ht1, hR⟩ := hstep s t c answer s1 ht hs1
    obtain ⟨t', hret, ht'⟩ := ih answer h hR
    exact ⟨t', ⟨answer, t1, ht1, hret⟩, ht'⟩

/-! ## Deterministic machines -/

theorem returns_ofExec_iff {p : Prog σ C ε α} :
    (ofExec exec).Returns p s r s' ↔ p.run exec s = (r, s') := by
  induction p generalizing s with
  | done r' =>
    show r = r' ∧ s' = s ↔ (r', s) = (r, s')
    rw [Prod.mk.injEq]
    exact and_congr eq_comm eq_comm
  | look next ih => exact ih s
  | call c next ih =>
    simp only [Returns, ofExec, Prog.run]
    cases exec c s with
    | ok | error =>
      constructor
      · rintro ⟨answer, t', ⟨rfl, rfl⟩, hret⟩
        exact (ih _).mp hret
      · intro hrun
        exact ⟨_, _, ⟨rfl, rfl⟩, (ih _).mpr hrun⟩

theorem leaves_run (p : Prog σ C ε α) (s : σ) : (ofExec exec).Leaves p s (p.run exec s).2 none :=
  ⟨_, returns_ofExec_iff.mpr rfl⟩

theorem view_ofExec (s : σ) : (ofExec exec).view s = s := rfl

theorem step_ofExec (h : exec c s = .ok t) : (ofExec exec).Step s c (.ok ()) t := by
  simp only [ofExec, h, and_self]

/-- On a deterministic machine the run ends as `Meets` says. -/
theorem Meets.run {p : Prog σ C ε α} {Q : Except ε α → σ → Prop} (h : (ofExec exec).Meets Q I p s) :
    Q (p.run exec s).1 (p.run exec s).2 :=
  h.returns (returns_ofExec_iff.mpr rfl)

theorem meets_issue_of_ok {Q : Except ε Unit → σ → Prop} (h : exec c s = .ok t) :
    (ofExec exec).Meets Q I (Prog.issue c) s ↔ I s c ∧ Q (.ok ()) t := by
  rw [meets_issue]
  refine and_congr_right fun _ => ?_
  simp only [ofExec, h]
  exact ⟨fun hQ => hQ _ _ ⟨rfl, rfl⟩, fun hQ answer t' ⟨ha, ht⟩ => ha ▸ ht ▸ hQ⟩

theorem meets_issue_of_error {Q : Except ε Unit → σ → Prop} (h : exec c s = .error e) :
    (ofExec exec).Meets Q I (Prog.issue c) s ↔ I s c ∧ Q (.error e) s := by
  rw [meets_issue]
  refine and_congr_right fun _ => ?_
  simp only [ofExec, h]
  exact ⟨fun hQ => hQ _ _ ⟨rfl, rfl⟩, fun hQ answer t' ⟨ha, ht⟩ => ha ▸ ht ▸ hQ⟩

theorem meets_issue_onOk {P : Unit → σ → Prop} (hI : I s c)
    (h : ∀ t, exec c s = .ok t → P () t) : (ofExec exec).Meets (OnOk P) I (Prog.issue c) s := by
  cases hexec : exec c s with
  | ok t => exact (meets_issue_of_ok hexec).mpr ⟨hI, h t hexec⟩
  | error => exact (meets_issue_of_error hexec).mpr ⟨hI, trivial⟩

variable {Q : Except ε β → σ → Prop}

theorem meets_issue_bind_of_ok {f : Unit → Prog σ C ε β} (h : exec c s = .ok t) :
    (ofExec exec).Meets Q I (Prog.issue c >>= f) s ↔ I s c ∧ (ofExec exec).Meets Q I (f ()) t := by
  rw [meets_bind, meets_issue_of_ok h, then_ok]

theorem meets_lift_bind (h : x = .ok a) :
    M.Meets Q I ((liftM x : Prog V C ε α) >>= f) s ↔ M.Meets Q I (f a) s := by
  rw [h]
  exact Iff.rfl

theorem meets_lift_bind_cases (herror : ∀ e, x = .error e → Q (.error e) s)
    (hok : ∀ a, x = .ok a → M.Meets Q I (f a) s) :
    M.Meets Q I ((liftM x : Prog V C ε α) >>= f) s := by
  cases hx : x with
  | ok a => exact (meets_lift_bind rfl).mpr (hok a hx)
  | error e => exact herror e hx

theorem meets_view_bind {f : V → Prog V C ε β} :
    M.Meets Q I (Prog.view >>= f) s ↔ M.Meets Q I (f (M.view s)) s := Iff.rfl

end Machine
