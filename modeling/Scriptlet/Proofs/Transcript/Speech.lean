import Scriptlet.Prompt

/-!
# Speeches

Whoever speaks to a transcript writes, complains, notes or gives up, one after the other, and does
so whatever the transcript holds. `Speech f` says that `f` is put together like that. The listing of
a source is a speech, and so is a whole run of the prompt (`Speech.run`): it looks at its input and
never at what it has said.

So what holds of the four single steps holds of whole runs, by one induction for each such fact. Two
of them are that a speech adds to what was said before and does not depend on it (`Speech.behind`),
and that it adds nothing once the transcript has failed (`Speech.stays`).
-/

namespace Scriptlet.Transcript

/-- Something that can be said to any transcript. -/
inductive Speech : (Transcript → Transcript) → Prop where
  | silence : Speech fun t => t
  | write (written : List UInt8) : Speech (Transcript.write written)
  | complain (text : String) : Speech (Transcript.complain text)
  | note (r : Log.Record) : Speech (Transcript.note r)
  | fail (f : Failure) : Speech (Transcript.fail f)
  | andThen {f g : Transcript → Transcript} (first : Speech f) (second : Speech g) :
    Speech fun t => g (f t)

namespace Speech

/-- One speech for each member of a list. -/
theorem foldl {α : Type} {step : Transcript → α → Transcript} (one : ∀ a, Speech (step · a)) :
    ∀ list : List α, Speech (list.foldl step ·)
  | [] => silence
  | a :: list => (one a).andThen (foldl one list)

theorem print (text : String) : Speech (Transcript.print text) := write (Text.bytes text)

theorem noteEvent (e : Event) : Speech (Transcript.noteEvent e) := note e.record

/-! ## Listings and the prompt -/

theorem listTokens (source : List UInt8) : Speech fun t => (listTokens source t).2 :=
  (foldl (fun token => (noteEvent (.lexed token)).andThen (print (token.render ++ "\n")))
    (Cursor.ofBytes source).remaining).andThen (noteEvent _)

theorem warn (origin : Log.Origin) (defects : List Defect) :
    Speech (Prompt.warn origin defects) :=
  foldl (fun d : Defect => note ⟨.warn, origin, d.message⟩) defects

theorem answer (line : List UInt8) : Speech (Prompt.answer line) := by
  unfold Prompt.answer
  split
  · exact fail _
  · next text _ =>
    -- the defects are those of the line, whatever was said before
    exact (listTokens text).andThen (warn .prompt (Cursor.ofBytes text).drain.2.defects)

theorem ask : Speech Prompt.ask := print _

/-- Line after line is asked for and answered. -/
theorem answers (lines : List (List UInt8)) :
    Speech (lines.foldl fun t line => Prompt.answer line (Prompt.ask t)) :=
  foldl (fun line => ask.andThen (answer line)) lines

theorem close : Speech Prompt.close := note _

/-- **A run of the prompt is a speech.** -/
theorem run (input : List UInt8) : Speech (Prompt.run input) :=
  ((answers (Text.lines input)).andThen ask).andThen close

end Speech

/-! ## What was said before -/

/-- The transcript with `front` said before everything else. -/
def behind (front : Array Entry) (t : Transcript) : Transcript :=
  { t with entries := front ++ t.entries }

variable {front : Array Entry} {t : Transcript}

theorem add_behind (e : Entry) : (t.behind front).add e = (t.add e).behind front := by
  simp [add, behind]

/-- Complaints and notes are entries that a failed transcript does not take. -/
theorem taken_behind (e : Entry) :
    (if (t.behind front).failure.isSome then t.behind front else (t.behind front).add e)
      = (if t.failure.isSome then t else t.add e).behind front := by
  show (if t.failure.isSome then t.behind front else (t.behind front).add e) = _
  split
  · rfl
  · exact add_behind e

theorem write_behind (written : List UInt8) :
    (t.behind front).write written = (t.write written).behind front := by
  have failure : (t.behind front).failure = t.failure := rfl
  have room : (t.behind front).room = t.room := rfl
  unfold write
  rw [failure, room]
  by_cases failed : t.failure.isSome
  · simp only [if_pos failed]
  · simp only [if_neg failed]
    cases t.room with
    | none => exact add_behind _
    | some n =>
      simp only [add_behind]
      split <;> rfl

/-- **A speech is the same whatever was said before.** -/
theorem Speech.behind {f : Transcript → Transcript} (speech : Speech f) (front : Array Entry) :
    ∀ t : Transcript, f (t.behind front) = (f t).behind front := by
  induction speech with
  | silence => exact fun t => rfl
  | write written => exact fun t => write_behind written
  | complain text => exact fun t => taken_behind (.err text)
  | note r => exact fun t => taken_behind (.log r)
  | fail f => exact fun t => rfl
  | @andThen f g _ _ first second =>
    intro t
    show g (f (t.behind front)) = (g (f t)).behind front
    rw [first, second]

/-! ## Nothing is said any more -/

/-- **A transcript that has failed stays as it is**, whatever is said to it. -/
theorem Speech.stays {f : Transcript → Transcript} (speech : Speech f) :
    ∀ {t : Transcript}, t.failure.isSome → f t = t := by
  induction speech with
  | silence => exact fun _ => rfl
  | write written => exact fun failed => if_pos failed
  | complain text => exact fun failed => if_pos failed
  | note r => exact fun failed => if_pos failed
  | fail f =>
    intro t failed
    rw [Transcript.fail, Option.or_of_isSome failed]
  | @andThen f g _ _ first second =>
    intro t failed
    show g (f t) = t
    rw [first failed, second failed]

end Scriptlet.Transcript
