import StreamProgress.Command
import StreamProgress.Proofs.Tracker.Session

/-!
# What a configuration decides in a call

A call may name configurations anywhere among its other arguments, and more than one of them. This is
about what difference they make to the output. The last one has to be there and to be a configuration,
since it is loaded before anything else is done. That is all: which configuration it is makes no
difference, and those named before it are not even looked for.

## Arguments

A configuration takes the argument behind it, whatever that is, also if it looks like an option. So
arguments cannot be told apart one by one. `Command.Interspersed` says how arguments are put together,
and these are exactly the arguments with which something is run (`Command.ofArgs_eq_ok_run_iff`).

## Journals are not shown

A configuration says how journals are kept and whether checksums are verified. The tracker of an advance
keeps a journal, which is dropped at the end, and it restores no checkpoint. So its configuration would
have to show in the cursor or in an outcome, and it does not, through any number of indices
(`Command.advanceThrough_congr`).

## Main definitions

* `Command.Interspersed` — arguments with configurations between them

## Main results

* `Command.ofArgs_eq_ok_run_iff` — which arguments ask for what
* `Command.run_congr` — running does not depend on the configuration
* `Command.execute_of_interspersed` — what the configurations of a call decide
-/

namespace StreamProgress

namespace Command

variable {files files' : Files} {paths paths' positional args args' : List String} {path : String}

/-! ### Arguments -/

/-- Whether an argument is taken for what it is, where no configuration is expected. -/
def IsPositional (arg : String) : Prop := arg ∉ ["--config", "--help", "-h"]

instance (arg : String) : Decidable (IsPositional arg) :=
  inferInstanceAs (Decidable (arg ∉ ["--config", "--help", "-h"]))

/-- Whether arguments are the positional ones in their order, with configurations named between them,
before them and behind them. -/
inductive Interspersed : (paths positional args : List String) → Prop
  | nil : Interspersed [] [] []
  /-- Any text is taken for a path. -/
  | config {paths positional args : List String} (path : String)
      (h : Interspersed paths positional args) :
      Interspersed (path :: paths) positional ("--config" :: path :: args)
  | positional {paths positional args : List String} {arg : String} (harg : IsPositional arg)
      (h : Interspersed paths positional args) :
      Interspersed paths (arg :: positional) (arg :: args)

/-- The positional arguments by themselves. -/
theorem Interspersed.bare (h : Interspersed paths positional args) :
    Interspersed [] positional positional := by
  induction h with
  | nil => exact .nil
  | config path h ih => exact ih
  | positional harg h ih => exact .positional harg ih

theorem scan_config (config : Option String) (before : List String) (path : String)
    (args : List String) :
    Request.scan config before ("--config" :: path :: args) = Request.scan (some path) before args :=
  rfl

theorem scan_positional {arg : String} (harg : IsPositional arg) (config : Option String)
    (before args : List String) :
    Request.scan config before (arg :: args) = Request.scan config (before ++ [arg]) args := by
  simp only [IsPositional, List.mem_cons, List.not_mem_nil, or_false, not_or] at harg
  obtain ⟨hconfig, hhelp⟩ := harg
  rw [Request.scan.eq_def]
  exact (if_neg hconfig).trans (if_neg (not_or.2 hhelp))

/-- The last of the configurations, or the one that was there before them. -/
theorem getLast?_cons_or (path : String) (paths : List String) (config : Option String) :
    (path :: paths).getLast?.or config = paths.getLast?.or (some path) := by
  rw [List.getLast?_cons]
  cases paths.getLast? <;> rfl

theorem scan_of_interspersed (h : Interspersed paths positional args) (config : Option String)
    (before : List String) :
    Request.scan config before args =
      .ok (.run (paths.getLast?.or config) (before ++ positional)) := by
  induction h generalizing config before with
  | nil => rw [Request.scan, List.append_nil, List.getLast?_nil, Option.none_or]
  | config path h ih => rw [scan_config, ih, getLast?_cons_or]
  | positional harg h ih => rw [scan_positional harg, ih, List.append_assoc, List.singleton_append]

theorem exists_interspersed_of_scan {config config' : Option String} {before all : List String}
    (h : Request.scan config before args = .ok (.run config' all)) :
    ∃ paths positional, Interspersed paths positional args ∧ config' = paths.getLast?.or config ∧
      all = before ++ positional := by
  induction config, before, args using Request.scan.induct with
  | case1 config before =>
    obtain ⟨rfl, rfl⟩ := Request.run.inj (Except.ok.inj h)
    exact ⟨[], [], .nil, rfl, (List.append_nil _).symm⟩
  | case2 config before => cases h
  | case3 config before path args ih =>
    obtain ⟨paths, positional, hargs, rfl, rfl⟩ := ih h
    exact ⟨path :: paths, positional, .config path hargs, (getLast?_cons_or ..).symm, rfl⟩
  | case4 config before arg args hconfig hhelp =>
    rw [Request.scan.eq_def] at h
    cases ((if_neg hconfig).trans (if_pos hhelp)).symm.trans h
  | case5 config before arg args hconfig hhelp ih =>
    have harg : IsPositional arg := by
      simp only [IsPositional, List.mem_cons, List.not_mem_nil, or_false]
      exact not_or.2 ⟨hconfig, hhelp⟩
    obtain ⟨paths, positional, hargs, hconfig', rfl⟩ := ih (scan_positional harg config before args ▸ h)
    exact ⟨paths, arg :: positional, .positional harg hargs, hconfig', by simp⟩

/-- **Which arguments ask for something to be run.** -/
theorem ofArgs_eq_ok_run_iff {config : Option String} :
    Request.ofArgs args = .ok (.run config positional) ↔
      ∃ paths, Interspersed paths positional args ∧ config = paths.getLast? := by
  constructor
  · intro h
    obtain ⟨paths, positional, hargs, rfl, rfl⟩ := exists_interspersed_of_scan h
    exact ⟨paths, hargs, Option.or_none⟩
  · rintro ⟨paths, hargs, rfl⟩
    rw [Request.ofArgs, scan_of_interspersed hargs, Option.or_none, List.nil_append]

theorem execute_eq (h : Interspersed paths positional args) (files : Files) :
    execute files args = (loadConfig files paths.getLast? >>= fun config =>
      run files config positional) := by
  rw [execute, ofArgs_eq_ok_run_iff.2 ⟨paths, h, rfl⟩]
  rfl

/-! ### Running -/

theorem showCursor_congr {c d : Option Cursor} (h : c.map Cursor.bare = d.map Cursor.bare) :
    showCursor c = showCursor d := by
  obtain ⟨rfl, rfl⟩ | ⟨c, d, rfl, rfl, hcd⟩ := Cursor.eq_of_map_bare h
  · rfl
  · rw [showCursor, showCursor, Cursor.halfToJson, Cursor.halfToJson, ← Cursor.toJson_bare c, hcd,
      Cursor.toJson_bare]

/-- **Trackers with equal cursors show the same lines,** and have equal cursors at the end, whatever
journals they keep. -/
theorem advanceThrough_congr {t u : Tracker}
    (h : t.cursor.map Cursor.bare = u.cursor.map Cursor.bare) (indices : List UInt64) :
    ((advanceThrough t indices).map fun step => (step.1, step.2.cursor.map Cursor.bare)) =
      (advanceThrough u indices).map fun step => (step.1, step.2.cursor.map Cursor.bare) := by
  induction indices generalizing t u with
  | nil => exact congrArg (fun c => Except.ok ("", c)) h
  | cons index indices ih =>
    refine Except.map_bind_congr (Tracker.advance_congr h (.sequence index) 0 0) ?_
    rintro ⟨outcome, t'⟩ ⟨outcome', u'⟩ hstep
    obtain ⟨rfl, hcursor⟩ := Prod.mk.inj hstep
    refine Except.map_bind_congr (ih hcursor) ?_
    rintro ⟨lines, t''⟩ ⟨lines', u''⟩ hrest
    obtain ⟨rfl, hcursor'⟩ := Prod.mk.inj hrest
    exact congrArg (fun c => Except.ok (_, c)) hcursor'

/-- No configuration shows in an advance. -/
theorem advance_congr (c : Option Cursor) (indices : List UInt64) (config config' : Config) :
    advance c indices config = advance c indices config' := by
  have hrun := advanceThrough_congr (t := .start "cli" c config) (u := .start "cli" c config') rfl
    indices
  refine Except.bind_congr_of_map hrun ?_
  rintro ⟨lines, t⟩ ⟨lines', u⟩ hend
  obtain ⟨rfl, hcursor⟩ := Prod.mk.inj hend
  exact congrArg (fun shown => Except.ok (lines ++ "cursor: " ++ shown ++ "\n"))
    (showCursor_congr hcursor)

/-- **What is run does not depend on the configuration,** and on no file but that of the cursor. -/
theorem run_congr (hcursor : ∀ path ∈ positional[1]?, files path = files' path)
    (config config' : Config) : run files config positional = run files' config' positional := by
  match positional with
  | [] => rfl
  | [command] => rfl
  | command :: path :: args =>
    have hread : readCursor files path = readCursor files' path := by
      rw [readCursor, readCursor, hcursor path rfl]
    simp only [run, hread, advance_congr _ _ config config']

theorem exists_loadConfig {path : Option String}
    (h : ∀ p ∈ path, ∃ config, Config.load files p = .ok config) :
    ∃ config, loadConfig files path = .ok config := by
  cases path with
  | none => exact ⟨{}, rfl⟩
  | some path =>
    obtain ⟨config, hconfig⟩ := h path rfl
    exact ⟨config, by rw [loadConfig, hconfig]⟩

/-- **The configurations of a call decide only whether one can be loaded.**

* Where there are configurations among the positional arguments, the call ends as it does with the last
  of them in front. The others may be any texts.
* Two calls with the same positional arguments end alike, with the same output or the same fault, if
  the last configuration of each can be loaded or it has none. They may read different configurations,
  as long as they read the same cursor. -/
theorem execute_of_interspersed :
    (∀ (files : Files) (paths positional args : List String) (path : String),
      Interspersed (paths ++ [path]) positional args →
        execute files args = execute files ("--config" :: path :: positional)) ∧
      ∀ (files files' : Files) (paths paths' positional args args' : List String),
        Interspersed paths positional args → Interspersed paths' positional args' →
          (∀ path ∈ paths.getLast?, ∃ config, Config.load files path = .ok config) →
            (∀ path ∈ paths'.getLast?, ∃ config, Config.load files' path = .ok config) →
              (∀ path ∈ positional[1]?, files path = files' path) →
                execute files args = execute files' args' := by
  constructor
  · intro files paths positional args path hargs
    rw [execute_eq hargs, execute_eq (.config path hargs.bare), List.getLast?_concat]
    rfl
  · intro files files' paths paths' positional args args' hargs hargs' hload hload' hcursor
    obtain ⟨config, hconfig⟩ := exists_loadConfig hload
    obtain ⟨config', hconfig'⟩ := exists_loadConfig hload'
    rw [execute_eq hargs, execute_eq hargs', hconfig, hconfig', Except.ok_bind, Except.ok_bind,
      run_congr hcursor config config']

/-- The first configuration would have to be in a file `--help`, and is not looked for. The second one
makes every line of the journal a file and records all of them. -/
theorem execute_of_interspersed_advance :
    let files : Files := fun path =>
      if path = "a.json" then .ok "\x7b\"log_level\":\"TRACE\",\"log_max_bytes\":1\x7d"
      else if path = "c.json" then .ok "null"
      else .error .missing
    let args := ["--config", "--help", "advance", "--config", "a.json", "c.json", "3", "3"]
    execute files args = execute files ["--config", "a.json", "advance", "c.json", "3", "3"] ∧
      execute files args = execute files ["advance", "c.json", "3", "3"] := by
  intro files args
  have hpositional : Interspersed [] ["advance", "c.json", "3", "3"] ["advance", "c.json", "3", "3"] :=
    .positional (by decide) (.positional (by decide) (.positional (by decide)
      (.positional (by decide) .nil)))
  have hargs : Interspersed ["--help", "a.json"] ["advance", "c.json", "3", "3"] args :=
    .config "--help" (.positional (by decide) (.config "a.json" (.positional (by decide)
      (.positional (by decide) (.positional (by decide) .nil)))))
  have hload : Config.load files "a.json" = .ok { level := .trace, maxBytes := 1 } := rfl
  obtain ⟨hlast, hsame⟩ := execute_of_interspersed
  refine ⟨hlast files ["--help"] _ args "a.json" hargs, ?_⟩
  refine hsame files files _ [] _ args _ hargs hpositional ?_ nofun fun _ _ => rfl
  rintro _ ⟨⟩
  exact ⟨_, hload⟩

end Command

end StreamProgress
