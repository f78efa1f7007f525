import IoMonitor.EndToEnd.EventsCaptured
import IoMonitor.Listener.OutputInfluxdb

/-!
What `output_influxdb` posts.

A post that fails makes the plugin refuse, and `execute_plugin_chain` pauses it; but
`ok_to_accept_data` accepts, so the next record finds it running again. Each record
that the filters in front let through is posted once, whatever became of those before
it, and a record whose post failed is not posted again (`points_posted`).
-/

namespace IoMonitor

open CString Columns Floats LineFilter Listener

/-! ### The plugin -/

/-- How the calls of `libcurl` go at a record. -/
inductive Posting where
  /-- `curl_easy_init` has no handle. -/
  | noHandle
  /-- `curl_easy_perform` does not return `CURLE_OK`. -/
  | failed
  | performed
  deriving DecidableEq

/-- The number of records passed to the plugin, what it has printed, and the bodies of
the posts performed. -/
structure Posts where
  passed : Nat
  printed : Str
  performed : List Str

/-- A filter keeps its mask, `output_influxdb` its posts; nothing is known of those any
more once a string has no NUL. -/
abbrev PostMemory := BitVec 32 × Option Posts

/-- What the calls of the plugin meet: `libcurl` at each record, and what the two calls
of `copy_escaped_tag_value` find in `last_ch`. -/
structure Surroundings where
  curl : Nat → Posting
  lastCh : Nat → Char × Char
  printFloat : Float32 → Str

variable (world : Surroundings)

/-- `process_data`, with `puts(postdata)`. -/
def postRecord (data : MonitorRecord) (memory : PostMemory) : Int × PostMemory :=
  match memory.2 with
  | none => (PLUGIN_REFUSE_DATA, memory)
  | some m =>
      let next := { m with passed := m.passed + 1 }
      if world.curl m.passed = .noHandle then (PLUGIN_REFUSE_DATA, memory.1, some next)
      else
        match influxLine world.printFloat (world.lastCh m.passed) data with
        | none => (PLUGIN_REFUSE_DATA, memory.1, none)
        | some line =>
            let printed := m.printed ++ line.postdata ++ ['\n']
            if world.curl m.passed = .performed then
              (PLUGIN_ACCEPT_DATA, memory.1,
                some { next with printed, performed := m.performed ++ [line.postdata] })
            else (PLUGIN_REFUSE_DATA, memory.1, some { next with printed })

/-- What is posted of a record that is passed as number `n`. -/
def body (post : MonitorRecord × Nat) : Str :=
  ((influxLine world.printFloat (world.lastCh post.2) post.1).map InfluxLine.postdata).getD []

/-- The records whose posting ended in one of these ways. -/
def ended (rs : List MonitorRecord) (how : List Posting) : List (MonitorRecord × Nat) :=
  rs.zipIdx.filter fun post => world.curl post.2 ∈ how

def postsOf (rs : List MonitorRecord) : Posts where
  passed := rs.length
  printed := unlines ((ended world rs [.failed, .performed]).map (body world))
  performed := (ended world rs [.performed]).map (body world)

variable {world}

theorem ended_snoc (rs : List MonitorRecord) (r : MonitorRecord) (how : List Posting) :
    ended world (rs ++ [r]) how =
      ended world rs how ++ if world.curl rs.length ∈ how then [(r, rs.length)] else [] := by
  rw [ended, List.zipIdx_append, List.filter_append, Nat.zero_add]
  congr 1
  by_cases h : world.curl rs.length ∈ how <;> simp [h]

theorem body_of_line {r : MonitorRecord} {n : Nat} {line : InfluxLine}
    (formats : influxLine world.printFloat (world.lastCh n) r = some line) :
    body world (r, n) = line.postdata := by
  rw [body, formats]
  rfl

/-- One record more, as `process_data` leaves the posts. -/
theorem postRecord_postsOf (rs : List MonitorRecord) {r : MonitorRecord} {line : InfluxLine}
    (formats : influxLine world.printFloat (world.lastCh rs.length) r = some line)
    (mask : BitVec 32) :
    postRecord world r (mask, some (postsOf world rs)) =
      (if world.curl rs.length = .performed then PLUGIN_ACCEPT_DATA else PLUGIN_REFUSE_DATA,
        mask, some (postsOf world (rs ++ [r]))) := by
  have posted := body_of_line formats
  have passed : (postsOf world rs).passed = rs.length := rfl
  have length : (rs ++ [r]).length = rs.length + 1 := List.length_append
  simp only [postRecord, passed, formats]
  cases answer : world.curl rs.length with
  | noHandle => simp [postsOf, ended_snoc, answer]
  | failed => simp [postsOf, ended_snoc, answer, unlines, posted]
  | performed => simp [postsOf, ended_snoc, answer, unlines, posted]

/-! ### The plugin in a chain -/

/-- `output_influxdb`, running or paused, after these records. -/
structure After (world : Surroundings) (rs : List MonitorRecord) (p : Plugin PostMemory) :
    Prop where
  accepts : p.okToAcceptData = fun memory => (PLUGIN_ACCEPT_DATA, memory)
  posts : p.processData = postRecord world
  memory : p.memory.2 = some (postsOf world rs)

/-- A plugin that was paused is asked, and takes the record. -/
theorem After.asked {rs : List MonitorRecord} {p : Plugin PostMemory} (h : After world rs p) :
    (askPaused p).1 = { p with pluginPaused := false } := by
  unfold askPaused
  cases paused : p.pluginPaused with
  | true =>
      rw [if_pos rfl, h.accepts]
      rfl
  | false => rw [if_neg Bool.false_ne_true, ← paused]

theorem After.visit {rs : List MonitorRecord} {p : Plugin PostMemory} (h : After world rs p)
    {r : MonitorRecord} {line : InfluxLine}
    (formats : influxLine world.printFloat (world.lastCh rs.length) r = some line) :
    (visit r p).2.2 = false ∧ After world (rs ++ [r]) (Listener.visit r p).1 := by
  have memory : p.memory = (p.memory.1, some (postsOf world rs)) := by
    rw [← h.memory]
  have answer := postRecord_postsOf rs formats p.memory.1
  rw [← memory, ← h.posts] at answer
  unfold Listener.visit
  simp only [h.asked, Bool.false_eq_true, if_false, answer]
  refine ⟨?_, h.accepts, h.posts, rfl⟩
  split <;> rfl

end IoMonitor
