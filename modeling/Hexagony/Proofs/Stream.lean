import Mathlib.Tactic.Common
import Hexagony.Proofs.Text
import Hexagony.Stream

namespace Hexagony

def WriteReply.fails : WriteReply → Bool
  | zero | error => true
  | all | short _ | interrupted => false

namespace Offer
variable {writes : List WriteReply} {reply : WriteReply} {bytes : List UInt8} {offer : Offer}

structure Sound (writes : List WriteReply) (bytes : List UInt8) (offer : Offer) : Prop where
  taken : offer.taken <+: bytes
  complete : offer.error = none → offer.taken = bytes
  left : offer.writes = writes.drop offer.calls
  error : offer.error = none ↔ ∀ reply ∈ writes.take offer.calls, reply.fails = false

theorem sound_nothing (writes : List WriteReply) : Sound writes [] {writes} where
  taken := List.nil_prefix
  complete _ := rfl
  left := rfl
  error := by simp

theorem Sound.taking (sound : Sound writes bytes offer) (accepts : reply.fails = false)
    (front : List UInt8) : Sound (reply :: writes) (front ++ bytes) (taking front offer) where
  taken := (List.prefix_append_right_inj front).mpr sound.taken
  complete none := congrArg (front ++ ·) (sound.complete none)
  left := sound.left
  error := by
    rw [Offer.taking, List.take_succ_cons, List.forall_mem_cons, sound.error]
    exact ⟨fun others => ⟨accepts, others⟩, And.right⟩

theorem sound_all (accepts : reply.fails = false) (writes : List WriteReply) (bytes : List UInt8) :
    Sound (reply :: writes) bytes (taking bytes {writes}) := by
  have sound := (sound_nothing writes).taking accepts bytes
  rwa [List.append_nil] at sound

theorem sound_failed (fails : reply.fails = true) (writes : List WriteReply) (bytes : List UInt8)
    (error : StreamError) :
    Sound (reply :: writes) bytes (taking [] {writes, error := some error}) where
  taken := List.nil_prefix
  complete none := by cases none
  left := rfl
  error := by
    constructor
    · intro none
      cases none
    · intro accepted
      have accepts := accepted reply List.mem_cons_self
      rw [fails] at accepts
      cases accepts

theorem make_sound (writes : List WriteReply) (bytes : List UInt8) :
    Sound writes bytes (make writes bytes) := by
  fun_induction make writes bytes with
  | case1 writes => exact sound_nothing writes
  | case2 bytes =>
    -- Past the end of the script there is no reply left to account for.
    refine ⟨?_, ?_, rfl, ?_⟩ <;> simp [taking]
  | case3 writes bytes => exact sound_all rfl writes bytes
  | case4 more writes byte bytes ih =>
    have sound : Sound (.short more :: writes) _ _ := ih.taking rfl (byte :: bytes.take more)
    rwa [List.cons_append, List.take_append_drop] at sound
  | case5 writes bytes _ ih => exact ih.taking rfl []
  | case6 writes bytes => exact sound_failed rfl writes bytes .stalled
  | case7 writes bytes => exact sound_failed rfl writes bytes .closed

end Offer

theorem Device.flush_eq (device : Device) :
    device.flush =
      (if .error ∈ device.flushes.take 1 then some .closed else none,
        {device with flushes := device.flushes.drop 1, flushCalls := device.flushCalls + 1}) := by
  obtain ⟨_, flushes, _, _, _⟩ := device
  cases flushes with
  | nil => rfl
  | cons reply rest => cases reply <;> rfl

def Device.Unfailed (writes : List WriteReply) (flushes : List FlushReply) (device : Device) :
    Prop :=
  (∀ reply ∈ writes.take device.writeCalls, reply.fails = false) ∧
    .error ∉ flushes.take device.flushCalls

namespace Stream
variable {writes : List WriteReply} {flushes : List FlushReply} {text : List Char}
  {stream : Stream} {device : Device}

structure Tracks (writes : List WriteReply) (flushes : List FlushReply) (text : List Char)
    (stream : Stream) : Prop where
  taken : stream.device.taken.toList <+: text.flatMap String.utf8EncodeChar
  complete : stream.failure = none →
    stream.device.taken.toList = text.flatMap String.utf8EncodeChar
  writesLeft : stream.device.writes = writes.drop stream.device.writeCalls
  flushesLeft : stream.device.flushes = flushes.drop stream.device.flushCalls
  failure : stream.failure = none ↔ stream.device.Unfailed writes flushes

theorem start_tracks (writes : List WriteReply) (flushes : List FlushReply) :
    Tracks writes flushes [] {device := {writes, flushes}} where
  taken := List.nil_prefix
  complete _ := rfl
  writesLeft := rfl
  flushesLeft := rfl
  failure := by simp [Device.Unfailed]

theorem write_tracks (tracks : Tracks writes flushes text {device}) (char : Char) :
    Tracks writes flushes (text ++ [char])
      {device := (device.write (String.utf8EncodeChar char)).2
       failure := (device.write (String.utf8EncodeChar char)).1} := by
  have sound := Offer.make_sound device.writes (String.utf8EncodeChar char)
  have before : device.taken.toList = text.flatMap String.utf8EncodeChar := tracks.complete rfl
  have unfailed : device.Unfailed writes flushes := tracks.failure.mp rfl
  have left : device.writes = writes.drop device.writeCalls := tracks.writesLeft
  constructor
  · simpa [Device.write, before] using sound.taken
  · intro none
    simpa [Device.write, before] using sound.complete none
  · calc (Offer.make device.writes (String.utf8EncodeChar char)).writes
        = (writes.drop device.writeCalls).drop _ := by rw [sound.left, ← left]
      _ = writes.drop (device.writeCalls + _) := List.drop_drop
  · exact tracks.flushesLeft
  · dsimp only [Device.write, Device.Unfailed]
    rw [sound.error, List.take_add, List.forall_mem_append, ← left]
    exact ⟨fun others => ⟨⟨unfailed.1, others⟩, unfailed.2⟩, fun all => all.1.2⟩

theorem flush_tracks (tracks : Tracks writes flushes text {device}) :
    Tracks writes flushes text {device := device.flush.2, failure := device.flush.1} := by
  have unfailed : device.Unfailed writes flushes := tracks.failure.mp rfl
  have left : device.flushes = flushes.drop device.flushCalls := tracks.flushesLeft
  have called : .error ∉ flushes.take (device.flushCalls + 1) ↔ .error ∉ device.flushes.take 1 := by
    rw [List.take_add, List.mem_append, ← left]
    simp [unfailed.2]
  rw [Device.flush_eq]
  constructor
  · exact tracks.taken
  · intro _
    exact tracks.complete rfl
  · exact tracks.writesLeft
  · calc device.flushes.drop 1 = (flushes.drop device.flushCalls).drop 1 := by rw [left]
      _ = flushes.drop (device.flushCalls + 1) := List.drop_drop
  · dsimp only [Device.Unfailed]
    rw [called, ite_eq_right_iff]
    exact ⟨fun none => ⟨unfailed.1, by simpa using none⟩, fun others error => absurd error others.2⟩

theorem send_of_failed (failed : stream.failure ≠ none) (char : Char) :
    stream.send char = stream := by
  unfold send
  split
  · rfl
  · contradiction

theorem sendAll_of_failed (failed : stream.failure ≠ none) (text : String) :
    stream.sendAll text = stream := by
  unfold sendAll
  induction text.toList with
  | nil => rfl
  | cons char rest ih => rw [List.foldl_cons, send_of_failed failed, ih]

theorem sendAll_append (stream : Stream) (first second : String) :
    stream.sendAll (first ++ second) = (stream.sendAll first).sendAll second := by
  simp [sendAll]

theorem send_tracks (tracks : Tracks writes flushes text stream) (char : Char) :
    Tracks writes flushes (text ++ [char]) (stream.send char) := by
  obtain ⟨device, failure⟩ := stream
  cases failure with
  | some error =>
    rw [send_of_failed (by simp)]
    refine ⟨?_, (fun none => by cases none), tracks.writesLeft, tracks.flushesLeft, tracks.failure⟩
    rw [List.flatMap_append]
    exact tracks.taken.trans (List.prefix_append _ _)
  | none =>
    have written := write_tracks tracks char
    unfold send
    dsimp only
    cases outcome : device.write (String.utf8EncodeChar char) with
    | mk error device =>
      rw [outcome] at written
      cases error with
      | some error => exact written
      | none =>
        dsimp only
        split
        · exact flush_tracks written
        · exact written

-- The text sent before is general, so that the induction goes through.
theorem foldl_tracks (tracks : Tracks writes flushes text stream) (more : List Char) :
    Tracks writes flushes (text ++ more) (more.foldl send stream) := by
  induction more generalizing text stream with
  | nil => simpa using tracks
  | cons char rest ih =>
    have sent := ih (send_tracks tracks char)
    rwa [List.append_assoc] at sent

theorem sendAll_tracks (writes : List WriteReply) (flushes : List FlushReply) (text : String) :
    Tracks writes flushes text.toList (sendAll {device := {writes, flushes}} text) :=
  foldl_tracks (start_tracks writes flushes) text.toList

theorem finish_eq_ok :
    stream.finish.1 = .ok () ↔ stream.failure = none ∧ stream.device.flush.1 = none := by
  unfold finish
  cases failure : stream.failure with
  | some error => simp
  | none =>
    cases outcome : stream.device.flush with
    | mk error device => cases error <;> simp

theorem finish_taken (stream : Stream) : stream.finish.2.device.taken = stream.device.taken := by
  unfold finish
  split
  · rfl
  · dsimp only
    rw [Device.flush_eq]

-- At any point of a text: what a device has taken is a beginning of the text in bytes, and
-- everything so far unless the stream has failed. It has failed exactly if one of its calls has,
-- and then the rest of the text changes nothing, neither on the device nor in the number of calls.
-- A text is reported as written only if every byte of it was taken and the last flush went well.
theorem output_never_lost (writes : List WriteReply) (flushes : List FlushReply)
    (before after : String) :
    let start : Stream := {device := {writes, flushes}}
    let stream := start.sendAll before
    let sent := start.sendAll (before ++ after)
    stream.device.taken.toList <+: textBytes (before ++ after) ∧
      (stream.failure = none → stream.device.taken.toList = textBytes before) ∧
      (stream.failure ≠ none → sent = stream) ∧
      (stream.failure = none ↔ stream.device.Unfailed writes flushes) ∧
      (sent.finish.1 = .ok () ↔ sent.failure = none ∧ sent.device.flush.1 = none) ∧
      (sent.finish.1 = .ok () →
        sent.finish.2.device.taken.toList = textBytes (before ++ after)) := by
  intro start stream sent
  have tracks := sendAll_tracks writes flushes before
  rw [textBytes_append, textBytes_eq before]
  refine ⟨?_, tracks.complete, ?_, tracks.failure, finish_eq_ok, ?_⟩
  · exact tracks.taken.trans (List.prefix_append _ _)
  · intro failed
    exact (sendAll_append start before after).trans (sendAll_of_failed failed after)
  · intro finished
    have whole := sendAll_tracks writes flushes (before ++ after)
    rw [finish_taken, whole.complete (finish_eq_ok.mp finished).1, ← textBytes_eq,
      ← textBytes_eq, textBytes_append]

-- A character of two bytes goes out with an interruption and a short write. Of the two line breaks
-- after it the second is taken as well, but its flush fails, and nothing is offered any more.
theorem output_never_lost_flush :
    let start : Stream :=
      {device := {writes := [.interrupted, .short], flushes := [.ok, .error]}}
    let early := start.sendAll "é"
    let late := start.sendAll "é\n\n"
    (early.finish.1 = .ok () ∧ early.finish.2.device.taken.toList = textBytes "é") ∧
      late.failure ≠ none ∧ late.device.taken.toList <+: textBytes "é\n\nx" ∧
      start.sendAll "é\n\nx" = late ∧ late.finish.1 ≠ .ok () := by
  intro start early late
  obtain ⟨_, _, _, _, _, complete⟩ :=
    output_never_lost [.interrupted, .short] [.ok, .error] "é" ""
  obtain ⟨taken, _, stays, _, finishes, _⟩ :=
    output_never_lost [.interrupted, .short] [.ok, .error] "é\n\n" "x"
  have finished : early.finish.1 = .ok () := by decide +kernel
  have failed : late.failure ≠ none := by decide +kernel
  refine ⟨⟨finished, complete finished⟩, failed, taken, stays failed, ?_⟩
  intro ended
  exact failed (finishes.mp (by rwa [stays failed])).1

end Stream
end Hexagony
