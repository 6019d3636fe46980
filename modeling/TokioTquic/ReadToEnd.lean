import TokioTquic.ReadDelivery

/-!
# `read_to_end` and its limit

The engine hands out the rest of a stream in pieces of its choice and ends it
with FIN or a reset. What `read_to_end` returns depends on the bytes, the end
and the limit only.
-/

namespace TokioTquic
set_option autoImplicit false

/-- A completed `read_to_end`; `peak` is the most bytes it held. -/
structure ReadToEndRun where
  result : Except ReadToEndError Bytes
  self : RecvStream
  peak : Nat
  requests : List (Nat × ReadAnswer)
  rest : List ReadPass

namespace RecvStream

/-- The loop of `read_to_end` with `data` read so far. -/
def readToEndLoop (self : RecvStream) (data buf : Bytes) (sizeLimit : Nat)
    (passes : List ReadPass) : Option ReadToEndRun :=
  match _ : self.read buf passes with
  | none => none
  | some run =>
    match _ : run.result with
    | .ok (some n) =>
      let data := data ++ run.buf.take n
      if sizeLimit < data.length then
        some ⟨.error .tooLong, run.self, data.length, run.requests, run.rest⟩
      else
        (readToEndLoop run.self data run.buf sizeLimit run.rest).map fun r =>
          { r with peak := max data.length r.peak, requests := run.requests ++ r.requests }
    | .ok none => some ⟨.ok data, run.self, data.length, run.requests, run.rest⟩
    | .error e => some ⟨.error (.read e), run.self, data.length, run.requests, run.rest⟩
termination_by passes.length
decreasing_by exact read_rest_lt ‹_› ‹_›

def readToEnd (self : RecvStream) (sizeLimit : Nat) (passes : List ReadPass) :
    Option ReadToEndRun :=
  self.readToEndLoop [] (List.replicate 8192 0) sizeLimit passes

end RecvStream

/-! ## The rest of a stream -/

inductive StreamEnd where
  | fin
  | reset (code : Nat)

/-- The answers give out `left` and then the end of the stream. A request that gets
nothing leaves it as it is; what would follow the end is open. -/
inductive Serving (ending : StreamEnd) : Bytes → List (Nat × ReadAnswer) → Prop where
  | nil (left : Bytes) : Serving ending left []
  | idle {left : Bytes} {maxLen : Nat} {a : ReadAnswer} {rest : List (Nat × ReadAnswer)} :
      a.empty = true → Serving ending left rest → Serving ending left ((maxLen, a) :: rest)
  | chunk {data left : Bytes} {maxLen : Nat} {rest : List (Nat × ReadAnswer)} :
      data ≠ [] → data.length ≤ maxLen → Serving ending left rest →
        Serving ending (data ++ left) ((maxLen, .engine (.ok (data, false))) :: rest)
  | fin {data : Bytes} {maxLen : Nat} (rest : List (Nat × ReadAnswer)) :
      ending = .fin → data.length ≤ maxLen →
        Serving ending data ((maxLen, .engine (.ok (data, true))) :: rest)
  | reset {code maxLen : Nat} (rest : List (Nat × ReadAnswer)) :
      ending = .reset code →
        Serving ending [] ((maxLen, .engine (.error (.streamReset code))) :: rest)

/-- The answer that brings the end. -/
def StreamEnd.In : StreamEnd → ReadAnswer → Prop
  | .fin, .engine (.ok (_, last)) => last = true
  | .reset code, .engine (.error e) => e = .streamReset code
  | _, _ => False

/-- What `read_to_end` is to return for a stream with these bytes left. -/
def StreamEnd.readToEnd (content : Bytes) (sizeLimit : Nat) :
    StreamEnd → Except ReadToEndError Bytes
  | .fin => if content.length ≤ sizeLimit then .ok content else .error .tooLong
  | .reset code =>
    if content.length ≤ sizeLimit then .error (.read (.reset (.fromU32 code))) else .error .tooLong

theorem StreamEnd.readToEnd_over {content : Bytes} {sizeLimit : Nat} (ending : StreamEnd)
    (h : sizeLimit < content.length) : ending.readToEnd content sizeLimit = .error .tooLong := by
  cases ending <;> exact if_neg (Nat.not_le.mpr h)

/-- What the engine has left for this handle: nothing, once the handle has seen FIN. -/
def RecvStream.Remaining (self : RecvStream) (ending : StreamEnd) (left : Bytes) (maxLen : Nat)
    (passes : List ReadPass) : Prop :=
  if self.allDataRead then left = [] ∧ ending = .fin
  else Serving ending left (passes.map fun p => (maxLen, p.answer))

theorem Serving.skip {ending : StreamEnd} {left : Bytes} {maxLen : Nat} {a : ReadAnswer}
    {rest : List (Nat × ReadAnswer)} (ha : a.empty = true)
    (h : Serving ending left ((maxLen, a) :: rest)) : Serving ending left rest := by
  cases h with
  | idle _ hrest => exact hrest
  | chunk hdata => simp [ReadAnswer.empty, hdata] at ha
  | fin => simp [ReadAnswer.empty] at ha
  | reset => simp [ReadAnswer.empty] at ha

theorem Serving.skip_all {ending : StreamEnd} {left : Bytes} {maxLen : Nat}
    {waits rest : List ReadPass} (hidle : ∀ p ∈ waits, p.Idle)
    (h : Serving ending left ((waits ++ rest).map fun p => (maxLen, p.answer))) :
    Serving ending left (rest.map fun p => (maxLen, p.answer)) := by
  induction waits with
  | nil => exact h
  | cons p ps ih =>
    apply ih fun q hq => hidle q (List.mem_cons_of_mem p hq)
    exact h.skip (hidle p List.mem_cons_self).1

/-! ## One `read` of the loop -/

namespace RecvStream

/-- The next bytes of the rest, its FIN, or its reset. -/
inductive Reads (ending : StreamEnd) (left buf : Bytes)
    (r : ReadRun (Except ReadError (Option Nat))) : Prop where
  | bytes (data left' : Bytes) : left = data ++ left' → data ≠ [] → data.length ≤ buf.length →
      r.result = .ok (some data.length) → r.buf = data ++ buf.drop data.length →
      r.self.Remaining ending left' buf.length r.rest → Reads ending left buf r
  | fin : left = [] → ending = .fin → r.result = .ok none → Reads ending left buf r
  | reset (code : Nat) : left = [] → ending = .reset code →
      r.result = .error (.reset (.fromU32 code)) → Reads ending left buf r

theorem onReply_empty (self : RecvStream) (buf : Bytes) {a : ReadAnswer} (ha : a.empty = true) :
    self.onReply buf (a.reply buf.length) = (self, buf, .wait) := by
  unfold ReadAnswer.empty at ha
  split at ha
  · rfl
  · simp [ReadAnswer.reply, readReply, onReply]
  · cases ha

theorem decides_reads {self self' : RecvStream} {ending : StreamEnd} {left buf buf' : Bytes}
    {pass : ReadPass} {rest : List ReadPass} {result : Except ReadError (Option Nat)}
    (hself : self.allDataRead = false) (hopen : pass.waitError = none)
    (hd : pass.Decides self buf self' buf' result)
    (h : Serving ending left ((pass :: rest).map fun p => (buf.length, p.answer)))
    (requests : List (Nat × ReadAnswer)) :
    Reads ending left buf ⟨result, self', buf', requests, rest⟩ := by
  cases hd with
  | closed _ herror => simp [hopen] at herror
  | reply hreply =>
    rw [List.map_cons] at h
    generalize pass.answer = a at hreply h
    cases h with
    | idle ha =>
      rw [onReply_empty self buf ha] at hreply
      cases hreply
    | @chunk data left' _ _ hdata hlen hrest =>
      simp only [ReadAnswer.reply, readReply, List.take_of_length_le hlen,
        onReply_data self buf (Or.inl hdata), if_neg hdata] at hreply
      cases hreply
      refine .bytes data left' rfl hdata hlen rfl rfl ?_
      simpa only [Remaining, hself, Bool.or_false, Bool.false_eq_true, if_false] using hrest
    | fin _ hending hlen =>
      simp only [ReadAnswer.reply, readReply, List.take_of_length_le hlen,
        onReply_data self buf (Or.inr rfl)] at hreply
      by_cases hnil : left = []
      · rw [if_pos hnil] at hreply
        cases hreply
        exact .fin hnil hending rfl
      · rw [if_neg hnil] at hreply
        cases hreply
        refine .bytes left [] (List.append_nil _).symm hnil hlen rfl rfl ?_
        simp only [Remaining, Bool.or_true, if_true]
        exact ⟨trivial, hending⟩
    | @reset code _ _ hending =>
      cases hreply
      exact .reset code rfl hending rfl

theorem read_reads {self : RecvStream} {ending : StreamEnd} {left buf : Bytes}
    {passes : List ReadPass} {r : ReadRun (Except ReadError (Option Nat))} (hbuf : buf ≠ [])
    (hopen : ∀ p ∈ passes, p.waitError = none)
    (hleft : self.Remaining ending left buf.length passes) (h : self.read buf passes = some r) :
    Reads ending left buf r := by
  unfold read at h
  unfold Remaining at hleft
  split at h
  · rename_i hall
    rw [if_pos hall] at hleft
    cases h
    exact .fin hleft.1 hleft.2 rfl
  · rename_i hmore
    rw [if_neg hmore] at hleft
    obtain ⟨waits, pass, rfl, hidle, hlast, _⟩ := readLoop_some hbuf h
    have hserving := hleft.skip_all hidle
    exact decides_reads (Bool.eq_false_iff.mpr hmore) (hopen pass (by simp)) hlast hserving _

/-! ## The loop -/

/-- With `data` read and `left` to come, the loop returns what the whole stream calls for,
and never holds more than the limit and one buffer. -/
theorem readToEndLoop_spec {self : RecvStream} {data buf left : Bytes} {sizeLimit : Nat}
    {passes : List ReadPass} {r : ReadToEndRun} {ending : StreamEnd} (hbuf : buf ≠ [])
    (hopen : ∀ p ∈ passes, p.waitError = none)
    (hleft : self.Remaining ending left buf.length passes) (hdata : data.length ≤ sizeLimit)
    (h : self.readToEndLoop data buf sizeLimit passes = some r) :
    r.result = ending.readToEnd (data ++ left) sizeLimit ∧
      r.peak ≤ sizeLimit + buf.length := by
  fun_induction readToEndLoop self data buf sizeLimit passes generalizing r left with
  | case1 => cases h
  | case2 self data buf passes run hrun n hn data' =>
    rename_i hover
    cases h
    cases read_reads hbuf hopen hleft hrun with
    | bytes d left' hl _ hlen hres hrun' _ =>
      cases hn.symm.trans hres
      have hdata' : data' = data ++ d := by
        rw [show data' = data ++ run.buf.take d.length from rfl, hrun', List.take_left]
      clear_value data'
      subst hl hdata'
      refine ⟨(ending.readToEnd_over ?_).symm, ?_⟩
      · simp only [List.length_append] at hover ⊢
        omega
      · simp only [List.length_append]
        omega
    | fin _ _ hres => cases hn.symm.trans hres
    | reset _ _ _ hres => cases hn.symm.trans hres
  | case3 self data buf passes run hrun n hn data' hfits =>
    rename_i ih
    obtain ⟨r', hr', rfl⟩ := Option.map_eq_some_iff.mp h
    cases read_reads hbuf hopen hleft hrun with
    | bytes d left' hl hd hlen hres hrun' hleft' =>
      cases hn.symm.trans hres
      have hdata' : data' = data ++ d := by
        rw [show data' = data ++ run.buf.take d.length from rfl, hrun', List.take_left]
      have hlen' : run.buf.length = buf.length := by
        rw [hrun', List.length_append, List.length_drop]
        omega
      have hbuf' : run.buf ≠ [] := by
        rw [hrun']
        exact List.append_ne_nil_of_left_ne_nil hd _
      have hopen' : ∀ p ∈ run.rest, p.waitError = none :=
        fun p hp => hopen p (read_rest_mem hbuf hrun p hp)
      rw [← hlen'] at hleft'
      obtain ⟨hresult, hpeak⟩ := ih hbuf' hopen' hleft' (Nat.le_of_not_lt hfits) hr'
      rw [hdata', List.append_assoc, ← hl] at hresult
      refine ⟨hresult, max_le ?_ (hlen' ▸ hpeak)⟩
      exact Nat.le_add_right_of_le (Nat.le_of_not_lt hfits)
    | fin _ _ hres => cases hn.symm.trans hres
    | reset _ _ _ hres => cases hn.symm.trans hres
  | case4 self data buf passes run hrun hn =>
    cases h
    cases read_reads hbuf hopen hleft hrun with
    | bytes _ _ _ _ _ hres => cases hn.symm.trans hres
    | fin hnil hending hres =>
      subst hnil hending
      refine ⟨?_, Nat.le_add_right_of_le hdata⟩
      simp [StreamEnd.readToEnd, hdata]
    | reset _ _ _ hres => cases hn.symm.trans hres
  | case5 self data buf passes run hrun e he =>
    cases h
    cases read_reads hbuf hopen hleft hrun with
    | bytes _ _ _ _ _ hres => cases he.symm.trans hres
    | fin _ _ hres => cases he.symm.trans hres
    | reset code hnil hending hres =>
      cases he.symm.trans hres
      subst hnil hending
      refine ⟨?_, Nat.le_add_right_of_le hdata⟩
      simp [StreamEnd.readToEnd, hdata]

/-! ## Termination -/

theorem idle_not_end {ending : StreamEnd} {p : ReadPass} (h : p.Idle) : ¬ ending.In p.answer := by
  have hempty := h.1
  unfold ReadAnswer.empty at hempty
  split at hempty
  · rename_i ha
    rw [ha]
    cases ending <;> simp [StreamEnd.In]
  · rename_i ha
    rw [ha]
    cases ending <;> simp [StreamEnd.In]
  · cases hempty

theorem onReply_end {ending : StreamEnd} {self self' : RecvStream} {buf buf' : Bytes}
    {a : ReadAnswer} {n : Nat} (ha : ending.In a)
    (h : self.onReply buf (a.reply buf.length) = (self', buf', .ret (.ok (some n)))) :
    self'.allDataRead = true := by
  rcases a with (e | ⟨data, fin⟩) | _ | _
  · cases ending with
    | fin => cases ha
    | reset code =>
      cases (show e = _ from ha)
      cases h
  · cases ending with
    | fin =>
      cases (show fin = true from ha)
      simp only [ReadAnswer.reply, readReply, onReply, Bool.not_true, Bool.and_false,
        Bool.false_eq_true, if_false, if_true] at h
      exact congrArg (fun x => x.1.allDataRead) h.symm
    | reset code => cases ha
  · cases ending <;> cases ha
  · cases ending <;> cases ha

theorem read_not_end {ending : StreamEnd} {self : RecvStream} {buf : Bytes}
    {passes : List ReadPass} {r : ReadRun (Except ReadError (Option Nat))} {n : Nat}
    (hbuf : buf ≠ []) (h : self.read buf passes = some r) (hn : r.result = .ok (some n))
    (hmore : r.self.allDataRead = false) :
    ∀ p ∈ passes, ending.In p.answer → p ∈ r.rest := by
  unfold read at h
  split at h
  · cases h
    cases hn
  · obtain ⟨waits, pass, rfl, hidle, hlast, _⟩ := readLoop_some hbuf h
    intro p hp hend
    rcases List.mem_append.mp hp with hp | hp
    · exact absurd hend (idle_not_end (hidle p hp))
    · rcases List.mem_cons.mp hp with rfl | hp
      · rw [hn] at hlast
        cases hlast with
        | reply hreply =>
          rw [onReply_end hend hreply] at hmore
          cases hmore
      · exact hp

theorem readToEndLoop_none {self : RecvStream} {data buf : Bytes} {sizeLimit : Nat}
    {passes : List ReadPass} {ending : StreamEnd} (hbuf : buf ≠ [])
    (h : self.readToEndLoop data buf sizeLimit passes = none) :
    self.allDataRead = false ∧ ∀ p ∈ passes, ¬ ending.In p.answer := by
  fun_induction readToEndLoop self data buf sizeLimit passes with
  | case1 self data buf passes hrun =>
    unfold read at hrun
    split at hrun
    · cases hrun
    · rename_i hmore
      exact ⟨Bool.eq_false_iff.mpr hmore,
        fun p hp => idle_not_end (readLoop_none hbuf hrun p hp)⟩
  | case2 => cases h
  | case3 self data buf passes run hrun n hn data' hfits =>
    rename_i ih
    obtain ⟨hpos, hlen⟩ := read_some hbuf hrun hn
    have hbuf' : run.buf ≠ [] := by
      apply List.length_pos_iff.mp
      rw [hlen]
      exact List.length_pos_iff.mpr hbuf
    obtain ⟨hmore, hrest⟩ := ih hbuf' (by simpa using h)
    constructor
    · unfold read at hrun
      split at hrun
      · cases hrun
        cases hn
      · exact Bool.eq_false_iff.mpr ‹_›
    · exact fun p hp hend => hrest p (read_not_end hbuf hrun hn hmore p hp hend) hend
  | case4 => cases h
  | case5 => cases h

end RecvStream

/-- Whatever pieces the engine hands out the rest of a stream in, `read_to_end` returns,
with the content if that is within the limit, with the reset if the stream is reset, and
with `TooLong` beyond the limit; it never holds more than the limit and one buffer. -/
theorem read_to_end_limit {self : RecvStream} {content : Bytes} {ending : StreamEnd}
    {passes : List ReadPass} (sizeLimit : Nat) (hopen : ∀ p ∈ passes, p.waitError = none)
    (hleft : self.Remaining ending content 8192 passes)
    (hend : self.allDataRead = true ∨ ∃ p ∈ passes, ending.In p.answer) :
    ∃ r, self.readToEnd sizeLimit passes = some r ∧
      r.result = ending.readToEnd content sizeLimit ∧ r.peak ≤ sizeLimit + 8192 := by
  have hlen : (List.replicate 8192 (0 : UInt8)).length = 8192 := List.length_replicate
  have hbuf : List.replicate 8192 (0 : UInt8) ≠ [] := by
    apply List.length_pos_iff.mp
    rw [hlen]
    exact Nat.zero_lt_succ _
  cases hrun : self.readToEnd sizeLimit passes with
  | none =>
    obtain ⟨hmore, hnone⟩ := @RecvStream.readToEndLoop_none _ _ _ _ _ ending hbuf hrun
    rcases hend with hall | ⟨p, hp, hin⟩
    · rw [hmore] at hall
      cases hall
    · exact absurd hin (hnone p hp)
  | some r =>
    rw [← hlen] at hleft ⊢
    exact ⟨r, rfl, RecvStream.readToEndLoop_spec hbuf hopen hleft (Nat.zero_le _) hrun⟩

/-- Two bytes, in two pieces after a `Done`, under a limit of two. -/
theorem read_to_end_limit_two :
    ∃ r, (⟨1, 4, false⟩ : RecvStream).readToEnd 2
        [⟨.engine (.error .done), none⟩, ⟨.engine (.ok ([7], false)), none⟩,
          ⟨.engine (.ok ([8], true)), none⟩] = some r ∧
      r.result = .ok [7, 8] ∧ r.peak ≤ 2 + 8192 := by
  refine @read_to_end_limit _ [7, 8] .fin _ 2 ?_ ?_ ?_
  · decide
  · have hfin : Serving .fin [8] [(8192, .engine (.ok ([8], true)))] := .fin [] rfl (by decide)
    exact Serving.idle rfl (.chunk (List.cons_ne_nil 7 []) (by decide) hfin)
  · exact Or.inr ⟨_, List.mem_of_mem_getLast? rfl, rfl⟩

end TokioTquic
