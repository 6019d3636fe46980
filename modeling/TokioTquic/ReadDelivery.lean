import Mathlib.Data.List.Basic
import TokioTquic.RecvStream

/-!
# What `read` and `read_exact` deliver

The engine holds the rest of a stream's content and hands it out in chunks of
its own choice; FIN comes with the last chunk or alone. The calls deliver the
content in order whatever the chunks are.
-/

namespace TokioTquic
set_option autoImplicit false

/-! ## The engine's side of a stream -/

/-- The content not handed out yet, and whether FIN was handed out. -/
structure Source where
  left : Bytes
  fin : Bool
  drained : fin = true → left = []

namespace Source

def new (content : Bytes) : Source := ⟨content, false, nofun⟩

/-- The answers to a `StreamRead` of `maxLen` bytes, and what is left then. Once
FIN was handed out nothing is known of further answers. -/
inductive Serves : Source → Nat → Except TquicError (Bytes × Bool) → Source → Prop where
  | done (s : Source) (maxLen : Nat) : Serves s maxLen (.error .done) s
  | chunk {s s' : Source} {maxLen : Nat} {data : Bytes} {fin : Bool} :
      s.fin = false → (data ≠ [] ∨ fin = true) → data.length ≤ maxLen →
        s.left = data ++ s'.left → s'.fin = fin → Serves s maxLen (.ok (data, fin)) s'
  | afterFin {s : Source} (maxLen : Nat) (answer : Except TquicError (Bytes × Bool)) :
      s.fin = true → Serves s maxLen answer s

inductive ServesAll : Source → List (Nat × ReadAnswer) → Source → Prop where
  | nil (s : Source) : ServesAll s [] s
  | cons {s s' s'' : Source} {maxLen : Nat} {answer : Except TquicError (Bytes × Bool)}
      {rest : List (Nat × ReadAnswer)} :
      Serves s maxLen answer s' → ServesAll s' rest s'' →
        ServesAll s ((maxLen, .engine answer) :: rest) s''

theorem serves_ok {s s' : Source} {maxLen : Nat} {data : Bytes} {fin : Bool}
    (hfin : s.fin = false) (h : Serves s maxLen (.ok (data, fin)) s') :
    (data ≠ [] ∨ fin = true) ∧ data.length ≤ maxLen ∧ s.left = data ++ s'.left ∧ s'.fin = fin := by
  cases h with
  | chunk _ hdata hlen hleft hs' => exact ⟨hdata, hlen, hleft, hs'⟩
  | afterFin _ _ hs => simp [hfin] at hs

theorem serves_error {s s' : Source} {maxLen : Nat} {e : TquicError}
    (hfin : s.fin = false) (h : Serves s maxLen (.error e) s') : e = .done ∧ s' = s := by
  cases h with
  | done => exact ⟨rfl, rfl⟩
  | afterFin _ _ hs => simp [hfin] at hs

theorem servesAll_append {xs ys : List (Nat × ReadAnswer)} {s s'' : Source} :
    ServesAll s (xs ++ ys) s'' ↔ ∃ s', ServesAll s xs s' ∧ ServesAll s' ys s'' := by
  induction xs generalizing s with
  | nil =>
    constructor
    · exact fun h => ⟨s, .nil s, h⟩
    · rintro ⟨s', h, h'⟩
      cases h
      exact h'
  | cons x xs ih =>
    constructor
    · intro h
      cases h with
      | cons hs hrest =>
        obtain ⟨s', h1, h2⟩ := ih.mp hrest
        exact ⟨s', .cons hs h1, h2⟩
    · rintro ⟨s', h, h'⟩
      cases h with
      | cons hs hrest => exact .cons hs (ih.mpr ⟨s', hrest, h'⟩)

theorem servesAll_nil {s s' : Source} (h : ServesAll s [] s') : s' = s := by
  cases h
  rfl

end Source

/-! ## Passes of `read` -/

/-- `Done`, or a success without bytes and FIN. -/
def ReadAnswer.empty : ReadAnswer → Bool
  | .engine (.error .done) => true
  | .engine (.ok ([], false)) => true
  | _ => false

/-- The pass only sends the loop round again. -/
def ReadPass.Idle (pass : ReadPass) : Prop :=
  pass.answer.empty = true ∧ pass.waitError = none

instance (pass : ReadPass) : Decidable pass.Idle :=
  inferInstanceAs (Decidable (_ ∧ _))

/-- The pass ends the call with `result`, leaving `self'` and `buf'`. -/
inductive ReadPass.Decides (pass : ReadPass) (self : RecvStream) (buf : Bytes) :
    RecvStream → Bytes → Except ReadError (Option Nat) → Prop where
  | reply {self' : RecvStream} {buf' : Bytes} {result : Except ReadError (Option Nat)} :
      self.onReply buf (pass.answer.reply buf.length) = (self', buf', .ret result) →
        Decides pass self buf self' buf' result
  | closed {e : ReadError} :
      pass.answer.empty = true → pass.waitError = some e →
        Decides pass self buf self buf (.error e)

def ReadPass.request (buf : Bytes) (pass : ReadPass) : Nat × ReadAnswer :=
  (buf.length, pass.answer)

namespace RecvStream

theorem onReply_wait {self self' : RecvStream} {buf buf' : Bytes} {a : ReadAnswer}
    (hbuf : buf ≠ []) (h : self.onReply buf (a.reply buf.length) = (self', buf', .wait)) :
    self' = self ∧ buf' = buf ∧ a.empty = true := by
  have hlen : buf.length ≠ 0 := by simpa using hbuf
  rcases a with (e | ⟨data, fin⟩) | _ | _
  · cases e <;> simp_all [ReadAnswer.reply, readReply, onReply, ReadAnswer.empty]
  · cases fin <;> cases data <;>
      simp_all [ReadAnswer.reply, readReply, onReply, ReadAnswer.empty]
  · simp [ReadAnswer.reply, readReply, onReply] at h
  · simp [ReadAnswer.reply, onReply] at h

theorem onReply_data (self : RecvStream) (buf : Bytes) {data : Bytes} {fin : Bool}
    (h : data ≠ [] ∨ fin = true) :
    self.onReply buf (some (.ok (data, fin))) =
      ({ self with allDataRead := self.allDataRead || fin }, data ++ buf.drop data.length,
        .ret (.ok (if data = [] then none else some data.length))) := by
  cases fin <;> cases data <;> simp_all [onReply]

/-- A completed call is a number of idle passes and the pass that decides it. -/
theorem readLoop_some {self : RecvStream} {buf : Bytes} {passes : List ReadPass}
    {r : ReadRun (Except ReadError (Option Nat))} (hbuf : buf ≠ [])
    (h : self.readLoop buf passes = some r) :
    ∃ waits pass, passes = waits ++ pass :: r.rest ∧ (∀ p ∈ waits, p.Idle) ∧
      pass.Decides self buf r.self r.buf r.result ∧
      r.requests = (waits ++ [pass]).map (·.request buf) := by
  induction passes generalizing r with
  | nil => simp [readLoop] at h
  | cons pass rest ih =>
    unfold readLoop at h
    split at h
    · rename_i hret
      cases h
      exact ⟨[], pass, rfl, by simp, .reply hret, rfl⟩
    · rename_i hwait
      obtain ⟨rfl, rfl, hempty⟩ := onReply_wait hbuf hwait
      split at h
      · rename_i e he
        cases h
        exact ⟨[], pass, rfl, by simp, .closed hempty he, rfl⟩
      · rename_i hopen
        obtain ⟨r', hr', rfl⟩ := Option.map_eq_some_iff.mp h
        obtain ⟨waits, last, rfl, hidle, hlast, hreq⟩ := ih hr'
        refine ⟨pass :: waits, last, rfl, ?_, hlast, ?_⟩
        · intro p hp
          rcases List.mem_cons.mp hp with rfl | hp
          · exact ⟨hempty, hopen⟩
          · exact hidle p hp
        · simp [hreq, ReadPass.request]

theorem readLoop_none {self : RecvStream} {buf : Bytes} {passes : List ReadPass}
    (hbuf : buf ≠ []) (h : self.readLoop buf passes = none) : ∀ p ∈ passes, p.Idle := by
  induction passes with
  | nil => simp
  | cons pass rest ih =>
    unfold readLoop at h
    split at h
    · simp at h
    · rename_i hwait
      obtain ⟨rfl, rfl, hempty⟩ := onReply_wait hbuf hwait
      split at h
      · simp at h
      · rename_i hopen
        intro p hp
        rcases List.mem_cons.mp hp with rfl | hp
        · exact ⟨hempty, hopen⟩
        · exact ih (by simpa using h) p hp

/-! ## One call of `read` -/

/-- A `read` with content `left` left: the next bytes, or the end of the stream. -/
inductive ReadSpec (buf : Bytes) (s s' : Source)
    (r : ReadRun (Except ReadError (Option Nat))) : Prop where
  | bytes (n : Nat) : 0 < n → n ≤ buf.length → n ≤ s.left.length →
      r.result = .ok (some n) → r.buf = s.left.take n ++ buf.drop n →
      s'.left = s.left.drop n → ReadSpec buf s s' r
  | finished : s.left = [] → s'.fin = true → r.result = .ok none → r.buf = buf →
      ReadSpec buf s s' r

theorem serves_idle {buf : Bytes} {waits : List ReadPass} {s s' : Source}
    (hfin : s.fin = false) (hidle : ∀ p ∈ waits, p.Idle)
    (h : s.ServesAll (waits.map (·.request buf)) s') : s' = s := by
  induction waits with
  | nil => exact Source.servesAll_nil h
  | cons p ps ih =>
    have hempty := (hidle p List.mem_cons_self).1
    rw [List.map_cons, ReadPass.request] at h
    rcases hp : p.answer with (e | ⟨data, fin⟩) | _ | _ <;> rw [hp] at h hempty
    · cases h with
      | cons hs hrest =>
        obtain ⟨_, rfl⟩ := Source.serves_error hfin hs
        exact ih (fun q hq => hidle q (List.mem_cons_of_mem p hq)) hrest
    · cases h with
      | cons hs hrest =>
        obtain ⟨hdata, _⟩ := Source.serves_ok hfin hs
        cases data <;> cases fin <;> simp [ReadAnswer.empty] at hempty hdata
    · simp [ReadAnswer.empty] at hempty
    · simp [ReadAnswer.empty] at hempty

theorem serves_decides {self self' : RecvStream} {buf buf' : Bytes} {s s' : Source}
    {pass : ReadPass} {result : Except ReadError (Option Nat)}
    (hself : self.allDataRead = false) (hfin : s.fin = false) (hopen : pass.waitError = none)
    (hd : pass.Decides self buf self' buf' result)
    (h : s.ServesAll [pass.request buf] s') :
    self'.allDataRead = s'.fin ∧
      ∀ requests rest, ReadSpec buf s s' ⟨result, self', buf', requests, rest⟩ := by
  cases hd with
  | closed _ he => simp [hopen] at he
  | reply hreply =>
    rw [ReadPass.request] at h
    rcases hp : pass.answer with (e | ⟨data, fin⟩) | _ | _ <;> rw [hp] at h hreply
    · cases h with
      | cons hs hrest =>
        obtain ⟨rfl, rfl⟩ := Source.serves_error hfin hs
        simp [ReadAnswer.reply, readReply, onReply] at hreply
    · cases h with
      | cons hs hrest =>
        obtain rfl := Source.servesAll_nil hrest
        obtain ⟨hdata, hlen, hleft, hs'⟩ := Source.serves_ok hfin hs
        simp only [ReadAnswer.reply, readReply, List.take_of_length_le hlen,
          onReply_data self buf hdata, Prod.mk.injEq, Pass.ret.injEq] at hreply
        obtain ⟨rfl, rfl, rfl⟩ := hreply
        refine ⟨by simp [hself, hs'], fun requests rest => ?_⟩
        by_cases hnil : data = []
        · subst hnil
          have hfin' : s'.fin = true := by simpa [hs'] using hdata
          have hempty := s'.drained hfin'
          exact .finished (by simp [hleft, hempty]) hfin' (by simp) (by simp)
        · have hpos : 0 < data.length := List.length_pos_iff.mpr hnil
          exact .bytes data.length hpos hlen (by simp [hleft]) (by simp [hnil])
            (by simp [hleft]) (by simp [hleft])
    · cases h
    · cases h

theorem read_spec {self : RecvStream} {buf : Bytes} {passes : List ReadPass}
    {r : ReadRun (Except ReadError (Option Nat))} {s s' : Source} (hbuf : buf ≠ [])
    (hself : self.allDataRead = s.fin) (hopen : ∀ p ∈ passes, p.waitError = none)
    (h : self.read buf passes = some r) (hserved : s.ServesAll r.requests s') :
    r.self.allDataRead = s'.fin ∧ ReadSpec buf s s' r := by
  unfold read at h
  split at h
  · rename_i hall
    cases h
    obtain rfl := Source.servesAll_nil hserved
    have hfin : s'.fin = true := by rw [← hself, hall]
    exact ⟨hself, .finished (s'.drained hfin) hfin rfl rfl⟩
  · rename_i hmore
    have hall : self.allDataRead = false := by simpa using hmore
    have hfin : s.fin = false := by rw [← hself, hall]
    obtain ⟨waits, pass, rfl, hidle, hlast, hreq⟩ := readLoop_some hbuf h
    rw [hreq, List.map_append] at hserved
    obtain ⟨s₁, hwaits, hpass⟩ := Source.servesAll_append.mp hserved
    obtain rfl := serves_idle hfin hidle hwaits
    obtain ⟨hself', hspec⟩ := serves_decides hall hfin (hopen pass (by simp)) hlast hpass
    exact ⟨hself', hspec r.requests r.rest⟩

/-! ## One call of `read_exact` -/

def overwrite (buf : Bytes) (offset : Nat) (data : Bytes) : Bytes :=
  buf.take offset ++ data ++ buf.drop (offset + data.length)

theorem overwrite_length (buf data : Bytes) (offset : Nat)
    (h : offset + data.length ≤ buf.length) : (overwrite buf offset data).length = buf.length := by
  simp only [overwrite, List.length_append, List.length_take, List.length_drop]
  omega

theorem overwrite_overwrite (buf d e : Bytes) (offset : Nat)
    (h : offset + d.length ≤ buf.length) :
    overwrite (overwrite buf offset d) (offset + d.length) e = overwrite buf offset (d ++ e) := by
  have hlen : (buf.take offset ++ d).length = offset + d.length := by
    simp only [List.length_append, List.length_take]
    omega
  have htake : (overwrite buf offset d).take (offset + d.length) = buf.take offset ++ d := by
    rw [overwrite, ← hlen, List.take_left]
  have hdrop : (overwrite buf offset d).drop (offset + d.length + e.length) =
      buf.drop (offset + (d ++ e).length) := by
    rw [← List.drop_drop, overwrite, ← hlen, List.drop_left, hlen, List.drop_drop,
      List.length_append, Nat.add_assoc]
  rw [overwrite, htake, hdrop, overwrite, List.append_assoc (buf.take offset)]

/-- A `read_exact` that goes on at `offset` fills the buffer from the content
left, or delivers all of it and finishes early. -/
inductive ReadExactSpec (buf : Bytes) (offset : Nat) (s s' : Source)
    (r : ReadRun (Except ReadExactError Unit)) : Prop where
  | filled : buf.length - offset ≤ s.left.length → r.result = .ok () →
      r.buf = overwrite buf offset (s.left.take (buf.length - offset)) →
      s'.left = s.left.drop (buf.length - offset) → ReadExactSpec buf offset s s' r
  | early : s.left.length < buf.length - offset →
      r.result = .error (.finishedEarly (offset + s.left.length)) →
      r.buf = overwrite buf offset s.left → s'.fin = true → ReadExactSpec buf offset s s' r

theorem read_rest_mem {self : RecvStream} {buf : Bytes} {passes : List ReadPass}
    {r : ReadRun (Except ReadError (Option Nat))} (hbuf : buf ≠ [])
    (h : self.read buf passes = some r) : ∀ p ∈ r.rest, p ∈ passes := by
  unfold read at h
  split at h
  · cases h
    exact fun _ => id
  · obtain ⟨waits, pass, hpasses, _⟩ := readLoop_some hbuf h
    intro p hp
    rw [hpasses]
    exact List.mem_append_right _ (List.mem_cons_of_mem _ hp)

theorem slice_ne_nil {buf : Bytes} {offset : Nat} (h : offset < buf.length) :
    buf.drop offset ≠ [] := by
  simp only [ne_eq, List.drop_eq_nil_iff]
  omega

theorem readExactLoop_spec {self : RecvStream} {buf : Bytes} {offset : Nat}
    {passes : List ReadPass} {r : ReadRun (Except ReadExactError Unit)} {s s' : Source}
    (hself : self.allDataRead = s.fin) (hopen : ∀ p ∈ passes, p.waitError = none)
    (hoff : offset ≤ buf.length) (h : self.readExactLoop buf offset passes = some r)
    (hserved : s.ServesAll r.requests s') :
    r.self.allDataRead = s'.fin ∧ ReadExactSpec buf offset s s' r := by
  fun_induction readExactLoop self buf offset passes generalizing r s with
  | case1 => simp at h
  | case2 self buf offset passes hlt run hrun n hn ih =>
    obtain ⟨r', hr', rfl⟩ := Option.map_eq_some_iff.mp h
    obtain ⟨s₁, hfirst, hrest⟩ := Source.servesAll_append.mp hserved
    obtain ⟨hself₁, hspec⟩ := read_spec (slice_ne_nil hlt) hself hopen hrun hfirst
    cases hspec with
    | finished _ _ hres _ => simp [hn] at hres
    | bytes m hpos hle hleft hres hbuf hs₁ =>
      obtain rfl : n = m := by simpa [hn] using hres
      rw [List.length_drop] at hle
      have hdata : (s.left.take n).length = n := by simp [hleft]
      have hbuf' : buf.take offset ++ run.buf = overwrite buf offset (s.left.take n) := by
        simp only [hbuf, overwrite, hdata, List.drop_drop, List.append_assoc]
      rw [hbuf'] at hr' ih
      have hlen' := overwrite_length buf (s.left.take n) offset (by omega)
      have hopen' : ∀ p ∈ run.rest, p.waitError = none :=
        fun p hp => hopen p (read_rest_mem (slice_ne_nil hlt) hrun p hp)
      obtain ⟨hself', hspec'⟩ := ih hself₁ hopen' (by omega) hr' hrest
      refine ⟨hself', ?_⟩
      have hjoin : ∀ e, overwrite (overwrite buf offset (s.left.take n)) (offset + n) e =
          overwrite buf offset (s.left.take n ++ e) := by
        intro e
        have h' := overwrite_overwrite buf (s.left.take n) e offset (by omega)
        rwa [hdata] at h'
      have hlen₁ : s₁.left.length = s.left.length - n := by rw [hs₁, List.length_drop]
      have hsplit : s.left = s.left.take n ++ s₁.left := by rw [hs₁, List.take_append_drop]
      cases hspec' with
      | filled hall hok hb hs' =>
        rw [hlen'] at hall hb hs'
        have hcount : buf.length - offset = n + (buf.length - (offset + n)) := by omega
        refine .filled (by omega) hok ?_ ?_
        · rw [hb, hjoin, hs₁, hcount, List.take_add]
        · rw [hs', hs₁, List.drop_drop, hcount]
      | early hless herr hb hs' =>
        rw [hlen'] at hless
        refine .early (by omega) ?_ ?_ hs'
        · rw [herr, hlen₁]
          congr 2
          omega
        · rw [hb, hjoin, ← hsplit]
  | case3 self buf offset passes hlt run hrun hnone =>
    cases h
    obtain ⟨hself₁, hspec⟩ := read_spec (slice_ne_nil hlt) hself hopen hrun hserved
    cases hspec with
    | bytes m _ _ _ hres => simp [hnone] at hres
    | finished hleft hfin _ hbuf =>
      refine ⟨hself₁, .early ?_ ?_ ?_ hfin⟩
      · simp only [hleft, List.length_nil]
        omega
      · simp [hleft]
      · simp [hleft, hbuf, overwrite]
  | case4 self buf offset passes hlt run hrun e he =>
    cases h
    obtain ⟨_, hspec⟩ := read_spec (slice_ne_nil hlt) hself hopen hrun hserved
    cases hspec with
    | bytes m _ _ _ hres => simp [he] at hres
    | finished _ _ hres => simp [he] at hres
  | case5 self buf offset passes hge =>
    cases h
    obtain rfl := Source.servesAll_nil hserved
    have hzero : buf.length - offset = 0 := by omega
    refine ⟨hself, .filled (by omega) rfl ?_ ?_⟩
    · simp [hzero, overwrite]
    · simp [hzero]

theorem readExactLoop_full {self : RecvStream} {buf : Bytes} {offset : Nat}
    {passes : List ReadPass} (h : buf.length ≤ offset) :
    self.readExactLoop buf offset passes = some ⟨.ok (), self, buf, [], passes⟩ := by
  rw [readExactLoop, if_neg (by omega)]

theorem readExactLoop_some {self : RecvStream} {buf : Bytes} {offset n : Nat}
    {passes : List ReadPass} {run : ReadRun (Except ReadError (Option Nat))}
    (hlt : offset < buf.length) (hrun : self.read (buf.drop offset) passes = some run)
    (hn : run.result = .ok (some n)) :
    self.readExactLoop buf offset passes =
      (run.self.readExactLoop (buf.take offset ++ run.buf) (offset + n) run.rest).map
        fun r => { r with requests := run.requests ++ r.requests } := by
  rw [readExactLoop, if_pos hlt]
  split
  · simp_all
  · rename_i run' hrun'
    obtain rfl : run = run' := Option.some.inj (hrun.symm.trans hrun')
    split <;> simp_all

/-! ## Progress -/

/-- The passes that do more than send the loop round again. -/
def busy (passes : List ReadPass) : Nat := passes.countP (¬ ·.Idle)

theorem busy_idle {passes : List ReadPass} (h : ∀ p ∈ passes, p.Idle) : busy passes = 0 := by
  rw [busy, List.countP_eq_zero]
  simpa using h

theorem read_none {self : RecvStream} {buf : Bytes} {passes : List ReadPass} (hbuf : buf ≠ [])
    (h : self.read buf passes = none) : busy passes = 0 := by
  unfold read at h
  split at h
  · simp at h
  · exact busy_idle (readLoop_none hbuf h)

theorem read_busy {self : RecvStream} {buf : Bytes} {passes : List ReadPass}
    {r : ReadRun (Except ReadError (Option Nat))} (hbuf : buf ≠ [])
    (h : self.read buf passes = some r) : busy passes ≤ busy r.rest + 1 := by
  unfold read at h
  split at h
  · cases h
    simp
  · obtain ⟨waits, pass, rfl, hidle, _, _⟩ := readLoop_some hbuf h
    have hzero := busy_idle hidle
    unfold busy at hzero ⊢
    rw [List.countP_append, hzero, List.countP_cons]
    split <;> omega

theorem onReply_some {self self' : RecvStream} {buf buf' : Bytes} {a : ReadAnswer} {n : Nat}
    (h : self.onReply buf (a.reply buf.length) = (self', buf', .ret (.ok (some n)))) :
    0 < n ∧ buf'.length = buf.length := by
  rcases a with r | _ | _
  · rcases hr : readReply buf.length (some r) with e | ⟨data, fin⟩
    · simp [ReadAnswer.reply, hr, onReply] at h
    · have hlen := readReply_length hr
      rw [ReadAnswer.reply, hr] at h
      by_cases hdata : data ≠ [] ∨ fin = true
      · rw [onReply_data self buf hdata] at h
        simp only [Prod.mk.injEq, Pass.ret.injEq, Except.ok.injEq] at h
        obtain ⟨_, rfl, h⟩ := h
        split at h
        · simp at h
        · rename_i hne
          obtain rfl : data.length = n := by simpa using h
          refine ⟨List.length_pos_iff.mpr hne, ?_⟩
          simp only [List.length_append, List.length_drop]
          omega
      · simp only [not_or, ne_eq, not_not, Bool.not_eq_true] at hdata
        simp [hdata.1, hdata.2, onReply] at h
  · simp [ReadAnswer.reply, readReply, onReply] at h
  · simp [ReadAnswer.reply, onReply] at h

theorem read_some {self : RecvStream} {buf : Bytes} {passes : List ReadPass}
    {r : ReadRun (Except ReadError (Option Nat))} {n : Nat} (hbuf : buf ≠ [])
    (h : self.read buf passes = some r) (hn : r.result = .ok (some n)) :
    0 < n ∧ r.buf.length = buf.length := by
  unfold read at h
  split at h
  · cases h
    simp at hn
  · obtain ⟨_, pass, _, _, hlast, _⟩ := readLoop_some hbuf h
    rw [hn] at hlast
    cases hlast with
    | reply hreply => exact onReply_some hreply

theorem readExactLoop_none {self : RecvStream} {buf : Bytes} {offset : Nat}
    {passes : List ReadPass} (h : self.readExactLoop buf offset passes = none) :
    busy passes < buf.length - offset := by
  fun_induction readExactLoop self buf offset passes with
  | case1 self buf offset passes hlt hread =>
    have hzero := read_none (slice_ne_nil hlt) hread
    omega
  | case2 self buf offset passes hlt run hrun n hn ih =>
    have hlater := ih (by simpa using h)
    have hused := read_busy (slice_ne_nil hlt) hrun
    obtain ⟨hpos, hlen⟩ := read_some (slice_ne_nil hlt) hrun hn
    simp only [List.length_append, List.length_take, hlen, List.length_drop] at hlater
    omega
  | case3 => simp at h
  | case4 => simp at h
  | case5 => simp at h

theorem readExactLoop_busy {self : RecvStream} {buf : Bytes} {offset : Nat}
    {passes : List ReadPass} {r : ReadRun (Except ReadExactError Unit)}
    (h : self.readExactLoop buf offset passes = some r) :
    busy passes ≤ busy r.rest + (buf.length - offset) := by
  fun_induction readExactLoop self buf offset passes generalizing r with
  | case1 => simp at h
  | case2 self buf offset passes hlt run hrun n hn ih =>
    obtain ⟨r', hr', rfl⟩ := Option.map_eq_some_iff.mp h
    have hlater := ih hr'
    have hused := read_busy (slice_ne_nil hlt) hrun
    obtain ⟨hpos, hlen⟩ := read_some (slice_ne_nil hlt) hrun hn
    simp only [List.length_append, List.length_take, hlen, List.length_drop] at hlater ⊢
    omega
  | case3 self buf offset passes hlt run hrun =>
    cases h
    have hused := read_busy (slice_ne_nil hlt) hrun
    simp only
    omega
  | case4 self buf offset passes hlt run hrun =>
    cases h
    have hused := read_busy (slice_ne_nil hlt) hrun
    simp only
    omega
  | case5 =>
    cases h
    simp

end RecvStream

/-! ## Sequences of calls -/

inductive ReadCall where
  | read (buf : Bytes)
  | readExact (buf : Bytes)

def ReadCall.buf : ReadCall → Bytes
  | .read buf => buf
  | .readExact buf => buf

inductive ReadOutcome where
  | read (run : ReadRun (Except ReadError (Option Nat)))
  | readExact (run : ReadRun (Except ReadExactError Unit))

namespace ReadOutcome

def self : ReadOutcome → RecvStream
  | .read run => run.self
  | .readExact run => run.self

def requests : ReadOutcome → List (Nat × ReadAnswer)
  | .read run => run.requests
  | .readExact run => run.requests

def rest : ReadOutcome → List ReadPass
  | .read run => run.rest
  | .readExact run => run.rest

def delivered : ReadOutcome → Bytes
  | .read ⟨.ok (some n), _, buf, _, _⟩ => buf.take n
  | .read _ => []
  | .readExact ⟨.ok (), _, buf, _, _⟩ => buf
  | .readExact ⟨.error (.finishedEarly n), _, buf, _, _⟩ => buf.take n
  | .readExact _ => []

end ReadOutcome

/-- What `read_exact` returns and delivers into `len` bytes when `left` is left. -/
def exactResult (left : Bytes) (len : Nat) : Except ReadExactError Unit × Bytes :=
  if len ≤ left.length then (.ok (), left.take len)
  else (.error (.finishedEarly left.length), left)

/-- A call that finds `s` and leaves `s'` behind. -/
def ReadOutcome.Exact (s s' : Source) : ReadCall → ReadOutcome → Prop
  | .read _, .read run =>
    run.result ≠ .ok (some 0) ∧ (run.result = .ok none ↔ s.left = [] ∧ s'.fin = true)
  | .readExact buf, .readExact run =>
    (run.result, (ReadOutcome.readExact run).delivered) = exactResult s.left buf.length
  | _, _ => False

/-- Calls and outcomes that follow each other from `s` to `s'`, every one
exact and every one delivering what it removed. -/
def Delivers : Source → List (ReadCall × ReadOutcome) → Source → Prop
  | s, [], s' => s' = s
  | s, (call, o) :: rest, s'' => ∃ s', s.ServesAll o.requests s' ∧ o.Exact s s' call ∧
      s.left = o.delivered ++ s'.left ∧ Delivers s' rest s''

namespace RecvStream

def runCall (self : RecvStream) (passes : List ReadPass) : ReadCall → Option ReadOutcome
  | .read buf => (self.read buf passes).map .read
  | .readExact buf => (self.readExact buf passes).map .readExact

def runCalls (self : RecvStream) : List ReadCall → List ReadPass → Option (List ReadOutcome)
  | [], _ => some []
  | call :: calls, passes =>
    (self.runCall passes call).bind fun o => (o.self.runCalls calls o.rest).map (o :: ·)

/-- The number of passes that are certain to complete a call. -/
def work : ReadCall → Nat
  | .read _ => 1
  | .readExact buf => buf.length

theorem readExact_delivers {buf : Bytes} {s s' : Source}
    {r : ReadRun (Except ReadExactError Unit)} (h : ReadExactSpec buf 0 s s' r) :
    (r.result, (ReadOutcome.readExact r).delivered) = exactResult s.left buf.length ∧
      s.left = (ReadOutcome.readExact r).delivered ++ s'.left := by
  rcases r with ⟨result, self', buf', requests, rest⟩
  cases h with
  | filled hall hok hbuf hleft =>
    simp only [Nat.sub_zero] at hall hok hbuf hleft
    have hlen : (s.left.take buf.length).length = buf.length := by simp [hall]
    have hb : buf' = s.left.take buf.length := by simp [hbuf, overwrite, hlen]
    subst hok hb
    refine ⟨by simp [ReadOutcome.delivered, exactResult, hall], ?_⟩
    simp only [ReadOutcome.delivered, hleft, List.take_append_drop]
  | early hless herr hbuf hfin =>
    simp only [Nat.sub_zero, Nat.zero_add] at hless herr hbuf
    have hnot : ¬ buf.length ≤ s.left.length := by omega
    subst herr hbuf
    simp [ReadOutcome.delivered, exactResult, hnot, overwrite, s'.drained hfin]

theorem read_delivers {buf : Bytes} {s s' : Source}
    {r : ReadRun (Except ReadError (Option Nat))} (h : ReadSpec buf s s' r) :
    (ReadOutcome.read r).Exact s s' (.read buf) ∧
      s.left = (ReadOutcome.read r).delivered ++ s'.left := by
  rcases r with ⟨result, self', buf', requests, rest⟩
  cases h with
  | bytes n hpos _ hle hok hbuf hleft =>
    have hne : s.left ≠ [] := List.length_pos_iff.mp (by omega)
    have hlen : (s.left.take n).length = n := by simp [hle]
    have htake : buf'.take n = s.left.take n := by
      simp only at hbuf
      rw [hbuf, List.take_append_of_le_length (by omega), List.take_of_length_le (by omega)]
    subst hok
    refine ⟨⟨?_, ?_⟩, ?_⟩
    · simp only [ne_eq, Except.ok.injEq, Option.some.injEq]
      omega
    · simp [hne]
    · simp only [ReadOutcome.delivered, htake, hleft, List.take_append_drop]
  | finished hleft hfin hok _ =>
    subst hok
    simp [ReadOutcome.Exact, ReadOutcome.delivered, hleft, hfin, s'.drained hfin]

theorem readExactLoop_rest_mem {self : RecvStream} {buf : Bytes} {offset : Nat}
    {passes : List ReadPass} {r : ReadRun (Except ReadExactError Unit)}
    (h : self.readExactLoop buf offset passes = some r) : ∀ p ∈ r.rest, p ∈ passes := by
  fun_induction readExactLoop self buf offset passes generalizing r with
  | case1 => simp at h
  | case2 self buf offset passes hlt run hrun n hn ih =>
    obtain ⟨r', hr', rfl⟩ := Option.map_eq_some_iff.mp h
    exact fun p hp => read_rest_mem (slice_ne_nil hlt) hrun p (ih hr' p hp)
  | case3 self buf offset passes hlt run hrun =>
    cases h
    exact read_rest_mem (slice_ne_nil hlt) hrun
  | case4 self buf offset passes hlt run hrun =>
    cases h
    exact read_rest_mem (slice_ne_nil hlt) hrun
  | case5 =>
    cases h
    exact fun _ => id

theorem runCall_rest_mem {self : RecvStream} {passes : List ReadPass} {call : ReadCall}
    {o : ReadOutcome} (hbuf : call.buf ≠ []) (h : self.runCall passes call = some o) :
    ∀ p ∈ o.rest, p ∈ passes := by
  cases call with
  | read buf =>
    obtain ⟨run, hrun, rfl⟩ := Option.map_eq_some_iff.mp h
    exact read_rest_mem hbuf hrun
  | readExact buf =>
    obtain ⟨run, hrun, rfl⟩ := Option.map_eq_some_iff.mp h
    exact readExactLoop_rest_mem hrun

theorem runCall_delivers {self : RecvStream} {passes : List ReadPass} {call : ReadCall}
    {o : ReadOutcome} {s s' : Source} (hbuf : call.buf ≠ []) (hself : self.allDataRead = s.fin)
    (hopen : ∀ p ∈ passes, p.waitError = none) (h : self.runCall passes call = some o)
    (hserved : s.ServesAll o.requests s') :
    o.self.allDataRead = s'.fin ∧ o.Exact s s' call ∧ s.left = o.delivered ++ s'.left := by
  cases call with
  | read buf =>
    obtain ⟨run, hrun, rfl⟩ := Option.map_eq_some_iff.mp h
    obtain ⟨hself', hspec⟩ := read_spec hbuf hself hopen hrun hserved
    exact ⟨hself', read_delivers hspec⟩
  | readExact buf =>
    obtain ⟨run, hrun, rfl⟩ := Option.map_eq_some_iff.mp h
    obtain ⟨hself', hspec⟩ := readExactLoop_spec hself hopen (Nat.zero_le _) hrun hserved
    exact ⟨hself', readExact_delivers hspec⟩

theorem runCall_busy {self : RecvStream} {passes : List ReadPass} {call : ReadCall}
    (hbuf : call.buf ≠ []) (h : work call ≤ busy passes) :
    ∃ o, self.runCall passes call = some o ∧ busy passes ≤ busy o.rest + work call := by
  cases call with
  | read buf =>
    cases hrun : self.read buf passes with
    | none =>
      have hzero := read_none hbuf hrun
      simp only [work] at h
      omega
    | some run => exact ⟨.read run, by simp [runCall, hrun], read_busy hbuf hrun⟩
  | readExact buf =>
    cases hrun : self.readExact buf passes with
    | none =>
      have hlt := readExactLoop_none hrun
      simp only [work] at h
      omega
    | some run => exact ⟨.readExact run, by simp [runCall, hrun], readExactLoop_busy hrun⟩

theorem runCalls_delivers {self : RecvStream} {calls : List ReadCall} {passes : List ReadPass}
    {outcomes : List ReadOutcome} {s s' : Source} (hself : self.allDataRead = s.fin)
    (hbuf : ∀ c ∈ calls, c.buf ≠ []) (hopen : ∀ p ∈ passes, p.waitError = none)
    (h : self.runCalls calls passes = some outcomes)
    (hserved : s.ServesAll (outcomes.flatMap (·.requests)) s') :
    Delivers s (calls.zip outcomes) s' ∧
      s.left = outcomes.flatMap (·.delivered) ++ s'.left := by
  induction calls generalizing self passes outcomes s with
  | nil =>
    obtain rfl : [] = outcomes := by simpa [runCalls] using h
    obtain rfl := Source.servesAll_nil hserved
    exact ⟨rfl, rfl⟩
  | cons call calls ih =>
    obtain ⟨o, ho, hrest⟩ := Option.bind_eq_some_iff.mp h
    obtain ⟨os, hos, rfl⟩ := Option.map_eq_some_iff.mp hrest
    rw [List.flatMap_cons] at hserved
    obtain ⟨s₁, hfirst, hlater⟩ := Source.servesAll_append.mp hserved
    have hcall := hbuf call List.mem_cons_self
    obtain ⟨hself₁, hexact, hleft⟩ := runCall_delivers hcall hself hopen ho hfirst
    have hopen₁ : ∀ p ∈ o.rest, p.waitError = none :=
      fun p hp => hopen p (runCall_rest_mem hcall ho p hp)
    obtain ⟨hall, hleft₁⟩ :=
      ih hself₁ (fun c hc => hbuf c (List.mem_cons_of_mem _ hc)) hopen₁ hos hlater
    refine ⟨⟨s₁, hfirst, hexact, hleft, hall⟩, ?_⟩
    rw [List.flatMap_cons, List.append_assoc, ← hleft₁, ← hleft]

theorem runCalls_length {self : RecvStream} {calls : List ReadCall} {passes : List ReadPass}
    {outcomes : List ReadOutcome} (h : self.runCalls calls passes = some outcomes) :
    outcomes.length = calls.length := by
  induction calls generalizing self passes outcomes with
  | nil =>
    obtain rfl : [] = outcomes := by simpa [runCalls] using h
    rfl
  | cons call calls ih =>
    obtain ⟨o, _, hrest⟩ := Option.bind_eq_some_iff.mp h
    obtain ⟨os, hos, rfl⟩ := Option.map_eq_some_iff.mp hrest
    rw [List.length_cons, List.length_cons, ih hos]

/-- Lossless reading: however the engine splits the content, every call is exact,
the delivered bytes are the prefix removed from the engine, and the calls
complete once enough passes are not idle. -/
theorem read_calls_lossless (self : RecvStream) (content : Bytes) (calls : List ReadCall)
    (passes : List ReadPass) (hself : self.allDataRead = false)
    (hbuf : ∀ c ∈ calls, c.buf ≠ []) (hopen : ∀ p ∈ passes, p.waitError = none) :
    (∀ outcomes s', self.runCalls calls passes = some outcomes →
      (Source.new content).ServesAll (outcomes.flatMap (·.requests)) s' →
        outcomes.length = calls.length ∧
        Delivers (Source.new content) (calls.zip outcomes) s' ∧
        content = outcomes.flatMap (·.delivered) ++ s'.left) ∧
    ((calls.map work).sum ≤ busy passes →
      ∃ outcomes, self.runCalls calls passes = some outcomes) := by
  constructor
  · intro outcomes s' h hserved
    exact ⟨runCalls_length h, runCalls_delivers hself hbuf hopen h hserved⟩
  · intro h
    clear hself hopen
    induction calls generalizing self passes with
    | nil => exact ⟨[], rfl⟩
    | cons call calls ih =>
      simp only [List.map_cons, List.sum_cons] at h
      obtain ⟨o, ho, hused⟩ :=
        @runCall_busy self passes call (hbuf call List.mem_cons_self) (by omega)
      obtain ⟨os, hos⟩ :=
        ih o.self o.rest (fun c hc => hbuf c (List.mem_cons_of_mem _ hc)) (by omega)
      exact ⟨o :: os, by simp [runCalls, ho, hos]⟩

/-- A `Done`, a first chunk, and a last one with FIN: `read` gets one byte and
`read_exact` the other two. -/
theorem read_calls_lossless_split :
    ∃ outcomes s',
      (RecvStream.mk 0 0 false).runCalls [.read [0, 0], .readExact [0, 0]]
        [⟨.engine (.error .done), none⟩, ⟨.engine (.ok ([1], false)), none⟩,
          ⟨.engine (.ok ([2, 3], true)), none⟩] = some outcomes ∧
      Delivers (Source.new [1, 2, 3]) ([.read [0, 0], .readExact [0, 0]].zip outcomes) s' ∧
      [1, 2, 3] = outcomes.flatMap (·.delivered) ++ s'.left ∧ s'.fin = true := by
  have lossless := (read_calls_lossless ⟨0, 0, false⟩ [1, 2, 3] [.read [0, 0], .readExact [0, 0]]
    [⟨.engine (.error .done), none⟩, ⟨.engine (.ok ([1], false)), none⟩,
      ⟨.engine (.ok ([2, 3], true)), none⟩] rfl (by simp [ReadCall.buf]) (by simp)).1
  have hruns : (RecvStream.mk 0 0 false).runCalls [.read [0, 0], .readExact [0, 0]]
      [⟨.engine (.error .done), none⟩, ⟨.engine (.ok ([1], false)), none⟩,
        ⟨.engine (.ok ([2, 3], true)), none⟩] =
      some [.read ⟨.ok (some 1), ⟨0, 0, false⟩, [1, 0],
          [(2, .engine (.error .done)), (2, .engine (.ok ([1], false)))],
          [⟨.engine (.ok ([2, 3], true)), none⟩]⟩,
        .readExact ⟨.ok (), ⟨0, 0, true⟩, [2, 3], [(2, .engine (.ok ([2, 3], true)))], []⟩] := by
    have hexact : (RecvStream.mk 0 0 false).readExact [0, 0]
        [⟨.engine (.ok ([2, 3], true)), none⟩] =
        some ⟨.ok (), ⟨0, 0, true⟩, [2, 3], [(2, .engine (.ok ([2, 3], true)))], []⟩ :=
      (readExactLoop_some (by decide) rfl rfl).trans (by rw [readExactLoop_full (by decide)]; rfl)
    have hread : (RecvStream.mk 0 0 false).read [0, 0]
        [⟨.engine (.error .done), none⟩, ⟨.engine (.ok ([1], false)), none⟩,
          ⟨.engine (.ok ([2, 3], true)), none⟩] =
        some ⟨.ok (some 1), ⟨0, 0, false⟩, [1, 0],
          [(2, .engine (.error .done)), (2, .engine (.ok ([1], false)))],
          [⟨.engine (.ok ([2, 3], true)), none⟩]⟩ := rfl
    simp only [runCalls, runCall, hread, Option.map_some, Option.bind_some, ReadOutcome.self,
      ReadOutcome.rest, hexact]
  have hserved : (Source.new [1, 2, 3]).ServesAll
      [(2, .engine (.error .done)), (2, .engine (.ok ([1], false))),
        (2, .engine (.ok ([2, 3], true)))] ⟨[], true, fun _ => rfl⟩ := by
    have hsecond : Source.Serves ⟨[2, 3], false, nofun⟩ 2 (.ok ([2, 3], true))
        ⟨[], true, fun _ => rfl⟩ := .chunk rfl (by simp) (by simp) rfl rfl
    have hfirst : Source.Serves (.new [1, 2, 3]) 2 (.ok ([1], false)) ⟨[2, 3], false, nofun⟩ :=
      .chunk rfl (by simp) (by simp) rfl rfl
    exact .cons (.done _ 2) (.cons hfirst (.cons hsecond (.nil _)))
  obtain ⟨-, hdelivers, hleft⟩ := lossless _ _ hruns hserved
  exact ⟨_, _, hruns, hdelivers, hleft, rfl⟩

end RecvStream

end TokioTquic
