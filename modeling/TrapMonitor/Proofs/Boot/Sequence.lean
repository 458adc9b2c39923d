import TrapMonitor.Proofs.Boot.DeviceTree
import TrapMonitor.Proofs.Core.Launch
import TrapMonitor.Proofs.Platform.Console
import TrapMonitor.Proofs.Video.Setup

/-! # Booting with any device tree

Whatever memory holds where the device tree should be, the boot sequence sends one line about it and
launches the supervisor, with one exception: a truncated header is a panic, which is reported and halts
the machine (`boot_with_tree`).
-/
namespace TrapMonitor.Boot

open UartView

/-- The bytes of a text as the console sends them: carriage returns are dropped. -/
def wire (text : String) : List Byte := (text.toUTF8.toList.map UInt8.toBitVec).filter (· ≠ 0x0d)

variable {Tree Fault U T F M I : Type} [Bus U] [Bus T] [Bus F]

/-! ## Records -/

theorem finish_emit (l : Logger) (r : Record) (p : SocPlatform U T F) :
    (l.emit Platform.write r p).finish = p.finish := by
  unfold Logger.emit
  induction utf8 (l.text r) generalizing p with
  | nil => rfl
  | cons b bytes ih => exact ih (Platform.write b p)

/-- What the console sends of a record. -/
def printed (r : Record) : List Byte :=
  ((ConsoleEvent.record r).output logger).filter (· ≠ Uart.carriageReturn)

theorem printed_of_rank_le {level : Level} (h : level.rank ≤ logger.max.rank) (message : String) :
    printed ⟨level, "emulator::firmware", message⟩ =
      wire (ConsoleEvent.label level ++ " - emulator::firmware: " ++ message ++ "\n") := by
  have hopening : " - emulator::firmware: " = " - " ++ "emulator::firmware" ++ ": " := by
    decide +kernel
  rw [printed, ConsoleEvent.output, if_pos h, wire, hopening]
  simp only [String.append_assoc]
  rfl

theorem printed_of_lt_rank {r : Record} (h : logger.max.rank < r.level.rank) : printed r = [] := by
  rw [printed, ConsoleEvent.output, if_neg (Nat.not_le.mpr h)]
  rfl

variable [UartView U]

/-- From `b` to `c` bytes were sent; the core, and the word that halts the machine, were left alone. -/
structure Said (bytes : List Byte) (b c : BootBoard U T F M I) : Prop where
  sent : sent c.platform.uart = sent b.platform.uart ++ bytes
  waits : Platform.waits c.platform = Platform.waits b.platform
  finish : c.platform.finish = b.platform.finish
  core : c.core = b.core
  logger : c.logger = b.logger

/-- A logger is in place, and the console has taken all that it was given. -/
structure Talks (b : BootBoard U T F M I) : Prop where
  logger : b.logger = some logger
  waits : Platform.waits b.platform = false

namespace Said

variable {bytes more : List Byte} {b c d : BootBoard U T F M I}

theorem refl (b : BootBoard U T F M I) : Said [] b b :=
  ⟨(List.append_nil _).symm, rfl, rfl, rfl, rfl⟩

theorem trans (first : Said bytes b c) (second : Said more c d) : Said (bytes ++ more) b d where
  sent := by rw [second.sent, first.sent, List.append_assoc]
  waits := second.waits.trans first.waits
  finish := second.finish.trans first.finish
  core := second.core.trans first.core
  logger := second.logger.trans first.logger

theorem talks (h : Said bytes b c) (hb : Talks b) : Talks c :=
  ⟨h.logger.trans hb.logger, h.waits.trans hb.waits⟩

end Said

variable [LawfulUart U] {b : BootBoard U T F M I}

theorem said_emit (hlogger : b.logger = some logger) (r : Record) :
    Said (printed r) b (emit b r) := by
  have hemit : emit b r = { b with platform := logger.emit Platform.write r b.platform } := by
    rw [emit, hlogger]
  have hstreamed : Streamed (printed r) [] b.platform.uart
      (logger.emit Platform.write r b.platform).uart := by
    rw [printed, ← ConsoleEvent.utf8_text]
    exact Accounted.foldl_write_streamed _ b.platform
  rw [hemit]
  exact ⟨hstreamed.sent, SocPlatform.waits_emit logger r b.platform,
    finish_emit logger r b.platform, rfl, rfl⟩

theorem said_foldl_emit (hlogger : b.logger = some logger) (rs : List Record) :
    Said (rs.flatMap printed) b (rs.foldl emit b) := by
  induction rs generalizing b with
  | nil => exact .refl b
  | cons r rs ih =>
    have hfirst := said_emit hlogger r
    exact hfirst.trans (ih (hfirst.logger.trans hlogger))

theorem exists_sayAll (hb : Talks b) (rs : List Record) :
    ∃ c, sayAll rs b = .ok () c ∧ Said (rs.flatMap printed) b c := by
  have hsaid := said_foldl_emit hb.logger rs
  refine ⟨_, ?_, hsaid⟩
  rw [sayAll, proceed, hsaid.waits, hb.waits]
  rfl

theorem exists_say (hb : Talks b) (level : Level) (hlevel : level.rank ≤ logger.max.rank)
    (message : String) : ∃ c, say level message b = .ok () c ∧
      Said (wire (ConsoleEvent.label level ++ " - emulator::firmware: " ++ message ++ "\n")) b c := by
  obtain ⟨c, hsay, hsaid⟩ := exists_sayAll hb [⟨level, "emulator::firmware", message⟩]
  rw [List.flatMap_singleton, printed_of_rank_le hlevel] at hsaid
  exact ⟨c, hsay, hsaid⟩

/-! ## The steps -/

/-- A panic is reported, and then the machine is halted. -/
structure Panicked (build : Build Tree Fault) (why : Abort) (b c : BootBoard U T F M I) : Prop where
  sent : sent c.platform.uart = sent b.platform.uart ++
    wire ("ERROR - emulator::firmware: !!! Firmware Panic !!!\n  " ++ build.report why ++ "\n")
  finish : c.platform.finish = (Bus.write 0 1 b.platform.finish).2
  core : c.core = b.core

theorem exists_abort (build : Build Tree Fault) (hb : Talks b) (why : Abort)
    (hwhy : why ≠ .neverReady) :
    ∃ c, abort build why b = (.error (.panicked why) c : EStateM.Result Stop _ Unit) ∧
      Panicked build why b c := by
  obtain ⟨c, hsay, hsaid⟩ := exists_say hb .error (by decide)
    ("!!! Firmware Panic !!!\n  " ++ build.report why)
  have habort : (abort build why : Booting U T F M I Unit) = (do
      say .error ("!!! Firmware Panic !!!\n  " ++ build.report why)
      halt (.panicked why)) := by
    cases why with
    | neverReady => exact absurd rfl hwhy
    | _ => rfl
  have hopening : "ERROR - emulator::firmware: !!! Firmware Panic !!!\n  " =
      "ERROR" ++ " - emulator::firmware: " ++ "!!! Firmware Panic !!!\n  " := by decide +kernel
  refine ⟨{ c with platform := Platform.halt c.platform }, ?_, ?_, ?_, hsaid.core⟩
  · rw [habort, bind_apply, hsay]
    rfl
  · rw [hopening]
    simp only [String.append_assoc]
    exact hsaid.sent
  · exact congrArg (fun f => (Bus.write 0 1 f).2) hsaid.finish

/-- The line about a tree that was judged. -/
def treeLine (library : TreeLibrary Tree Fault) : Except Fault Word → String
  | .ok size =>
    "INFO - emulator::firmware: device tree at 0xc1000000 (" ++ toString size.toNat ++ " bytes)\n"
  | .error e =>
    "WARN - emulator::firmware: no valid device tree at 0xc1000000: " ++ library.message e ++ "\n"

theorem treeAddress_eq : treeAddress = "0xc1000000" := by decide +kernel

theorem treeLine_ok (library : TreeLibrary Tree Fault) (size : Word) :
    treeLine library (.ok size) = ConsoleEvent.label .info ++ " - emulator::firmware: " ++
      ("device tree at " ++ treeAddress ++ " (" ++ toString size.toNat ++ " bytes)") ++ "\n" := by
  have hopening : "INFO - emulator::firmware: device tree at 0xc1000000 (" =
      "INFO" ++ " - emulator::firmware: " ++ "device tree at " ++ "0xc1000000" ++ " (" := by
    decide +kernel
  have hend : " bytes)\n" = " bytes)" ++ "\n" := by decide +kernel
  unfold treeLine
  rw [treeAddress_eq, hopening, hend]
  simp only [ConsoleEvent.label, String.append_assoc]

theorem treeLine_error (library : TreeLibrary Tree Fault) (e : Fault) :
    treeLine library (.error e) = ConsoleEvent.label .warn ++ " - emulator::firmware: " ++
      ("no valid device tree at " ++ treeAddress ++ ": " ++ library.message e) ++ "\n" := by
  have hopening : "WARN - emulator::firmware: no valid device tree at 0xc1000000: " =
      "WARN" ++ " - emulator::firmware: " ++ "no valid device tree at " ++ "0xc1000000" ++ ": " := by
    decide +kernel
  unfold treeLine
  rw [treeAddress_eq, hopening]
  simp only [ConsoleEvent.label, String.append_assoc]

theorem exists_inspectTree (build : Build Tree Fault) (hb : Talks b) {v : Except Fault Word}
    (hv : DeviceTree.size build.library b.core.memory.bytes BootPlan.deviceTreeBase = .ok v) :
    ∃ c, inspectTree build b = .ok () c ∧ Said (wire (treeLine build.library v)) b c := by
  unfold inspectTree
  rw [hv]
  cases v with
  | ok size =>
    rw [treeLine_ok]
    exact exists_say hb .info (by decide) _
  | error e =>
    rw [treeLine_error]
    exact exists_say hb .warn (by decide) _

/-- The last step does not fail, and what it has to say is not important enough for the log. -/
theorem exists_launch (build : Build Tree Fault) (hb : Talks b) :
    ∃ c, launch build b = .ok () c ∧ sent c.platform.uart = sent b.platform.uart := by
  have hroom : 128 ≤ Core.stackTop.toNat := by decide
  obtain ⟨plan, hplan⟩ := Core.make_eq_ok Core.trapEntry BootPlan.imageBase hroom
  obtain ⟨c, hsay, hsaid⟩ := exists_sayAll hb
    [⟨.debug, "emulator::firmware", "entering the supervisor with " ++ plan.report.block⟩]
  have hlow : logger.max.rank < Level.debug.rank := by decide
  rw [List.flatMap_singleton, printed_of_lt_rank hlow] at hsaid
  refine ⟨{ c with core := c.core.booted plan BootPlan.deviceTreeBase }, ?_,
    hsaid.sent.trans (List.append_nil _)⟩
  have hquiet : say .debug ("entering the supervisor with " ++ plan.report.block) b = .ok () c :=
    hsay
  unfold launch
  rw [hplan, bind_apply]
  change (do
    say .debug ("entering the supervisor with " ++ plan.report.block)
    onCore Core.openPmp
    onCore (Core.apply plan)
    onCore (Core.enterSupervisor BootPlan.deviceTreeBase) : Booting U T F M I Unit) b = _
  rw [bind_apply, hquiet]
  rfl

/-- What is sent in front of everything else. -/
def greeting : List Byte :=
  wire "INFO - emulator::firmware: VexRiscv machine mode emulator v0.1.0\n" ++
    wire "INFO - emulator::firmware: --========== \x1b[1mBooting Linux\x1b[0m =============--\n"

theorem exists_banner (hb : Talks b) :
    ∃ c, banner.forM (say .info) b = .ok () c ∧ Said greeting b c := by
  have hfirst : "INFO - emulator::firmware: VexRiscv machine mode emulator v0.1.0\n" =
      "INFO" ++ " - emulator::firmware: " ++ "VexRiscv machine mode emulator v0.1.0" ++ "\n" := by
    decide +kernel
  have hsecond :
      "INFO - emulator::firmware: --========== \x1b[1mBooting Linux\x1b[0m =============--\n" =
      "INFO" ++ " - emulator::firmware: " ++
        "--========== \x1b[1mBooting Linux\x1b[0m =============--" ++ "\n" := by
    decide +kernel
  obtain ⟨c, hsay, hsaid⟩ := exists_say hb .info (by decide)
    "VexRiscv machine mode emulator v0.1.0"
  obtain ⟨d, hsay', hsaid'⟩ := exists_say (hsaid.talks hb) .info (by decide)
    "--========== \x1b[1mBooting Linux\x1b[0m =============--"
  refine ⟨d, ?_, ?_⟩
  · change (do
      say .info "VexRiscv machine mode emulator v0.1.0"
      say .info "--========== \x1b[1mBooting Linux\x1b[0m =============--"
      pure () : Booting U T F M I Unit) b = _
    rw [bind_apply, hsay]
    dsimp only
    rw [bind_apply, hsay']
    rfl
  · rw [greeting, hfirst, hsecond]
    exact hsaid.trans hsaid'

/-! ## The sequence -/

/-- The core when the device tree is looked at: nothing of it is new but the sections of its RAM. -/
def prepared (sections : Sections) (c : Core) : Core := c.setRam (sections.setUp c.ram)

variable [Bus M] [Bus I]

/-- Booting from `b` has come to the device tree in `c`. -/
structure ReachesTree (build : Build Tree Fault) (sections : Sections) (video : List Byte)
    (b c : BootBoard U T F M I) : Prop where
  talks : Talks c
  rest : boot build sections b =
    (do inspectTree build; launch build : Booting U T F M I Unit) c
  sent : sent c.platform.uart = sent b.platform.uart ++ greeting ++ video
  finish : c.platform.finish = b.platform.finish
  core : c.core = prepared sections b.core
  video : build.framebuffer = false → video = []

namespace ReachesTree

variable {build : Build Tree Fault} {sections : Sections} {video : List Byte}
  {c : BootBoard U T F M I} (h : ReachesTree build sections video b c)
  (hlibrary : build.library.ChecksHeader)

include h

include hlibrary in
theorem panics (ht : DeviceTree.Truncated (prepared sections b.core).memory.bytes
    BootPlan.deviceTreeBase) :
    ∃ d, boot build sections b = .error (.panicked .truncatedTree) d ∧
      Panicked build .truncatedTree c d := by
  obtain ⟨d, habort, hpanicked⟩ := exists_abort build h.talks .truncatedTree nofun
  have hinspect : inspectTree build c = .error (.panicked .truncatedTree) d := by
    rw [inspectTree, h.core, DeviceTree.size_of_truncated hlibrary ht]
    exact habort
  refine ⟨d, ?_, hpanicked⟩
  rw [h.rest, bind_apply, hinspect]

theorem launches {v : Except Fault Word}
    (hv : DeviceTree.size build.library (prepared sections b.core).memory.bytes
      BootPlan.deviceTreeBase = .ok v) :
    ∃ d, boot build sections b = .ok () d ∧
      UartView.sent d.platform.uart =
        UartView.sent c.platform.uart ++ wire (treeLine build.library v) ∧
      Core.Launched Core.trapEntry Core.stackTop BootPlan.imageBase BootPlan.deviceTreeBase
        d.core := by
  rw [← h.core] at hv
  obtain ⟨judged, hinspect, hsaid⟩ := exists_inspectTree build h.talks hv
  obtain ⟨d, hlaunch, hsent⟩ := exists_launch build (hsaid.talks h.talks)
  obtain ⟨plan, hplan, hcore⟩ := core_of_launch hlaunch
  refine ⟨d, ?_, hsent.trans hsaid.sent, ?_⟩
  · rw [h.rest, bind_apply, hinspect]
    exact hlaunch
  · rw [hcore]
    exact Core.launched_booted hplan _ _

end ReachesTree

variable [PortView M] [LawfulPort M]

/-- The usual mode fits, so the port takes all of it. -/
theorem exists_configureVideo (build : Build Tree Fault) (hb : Talks b) :
    ∃ c bytes, configureVideo build b = .ok () c ∧ Said bytes b c := by
  have hfits : VideoTiming.vga75.Fits := by constructor <;> decide
  rcases Framebuffer.configure_cases VideoTiming.vga75 Framebuffer.pixelBase
    ⟨b.manager, b.initiator, []⟩ with ⟨-, f, hf, -⟩ | ⟨hn, -⟩
  · let taken : BootBoard U T F M I := { b with manager := f.manager, initiator := f.initiator }
    have htaken : Said [] b taken := ⟨(List.append_nil _).symm, rfl, rfl, rfl, rfl⟩
    obtain ⟨c, hsay, hsaid⟩ := exists_sayAll (htaken.talks hb) f.log
    refine ⟨c, _, ?_, htaken.trans hsaid⟩
    rw [configureVideo, hf]
    exact hsay
  · exact absurd hfits hn

/-- In front of the device tree nothing fails. -/
theorem exists_reachesTree (build : Build Tree Fault) (sections : Sections)
    (hlogger : b.logger = none) (hwaits : Platform.waits b.platform = false) :
    ∃ c video, ReachesTree build sections video b c := by
  let installed : BootBoard U T F M I :=
    { b with core := prepared sections b.core, logger := some logger }
  have htalks : Talks installed := ⟨rfl, hwaits⟩
  obtain ⟨greeted, hbanner, hgreeted⟩ := exists_banner htalks
  have hboot : boot build sections b = (do
      banner.forM (say .info)
      if build.framebuffer then configureVideo build
      inspectTree build
      launch build : Booting U T F M I Unit) installed := by
    obtain ⟨core, platform, manager, initiator, l⟩ := b
    cases hlogger
    rfl
  rw [bind_apply, hbanner] at hboot
  cases hvideo : build.framebuffer with
  | false =>
    rw [hvideo] at hboot
    exact ⟨greeted, [], hgreeted.talks htalks, hboot,
      hgreeted.sent.trans (List.append_nil _).symm, hgreeted.finish, hgreeted.core, fun _ => rfl⟩
  | true =>
    obtain ⟨c, video, hconfigured, hsaid⟩ := exists_configureVideo build (hgreeted.talks htalks)
    rw [hvideo] at hboot
    refine ⟨c, video, hsaid.talks (hgreeted.talks htalks), hboot.trans ?_, ?_,
      hsaid.finish.trans hgreeted.finish, hsaid.core.trans hgreeted.core, fun h => ?_⟩
    · change (do configureVideo build; inspectTree build; launch build :
        Booting U T F M I Unit) greeted = _
      rw [bind_apply, hconfigured]
    · rw [hsaid.sent, hgreeted.sent]
    · exact absurd (hvideo.symm.trans h) (by decide)

/-- Wherever booting starts, and whatever memory holds where the device tree should be, there is one
verdict on it. It is missing exactly for a truncated header: then the panic is reported, the machine
halts and the core stays where it was. With each other verdict one line is sent about it, with the size
of a valid tree or with a warning, and the supervisor is entered. -/
theorem boot_with_tree (build : Build Tree Fault) (hlibrary : build.library.ChecksHeader)
    (sections : Sections) (hlogger : b.logger = none) (hwaits : Platform.waits b.platform = false) :
    let ready := b.core.setRam (sections.setUp b.core.ram)
    (∀ m base, (∃ why, DeviceTree.size build.library m base = .error why) ↔
      DeviceTree.Truncated m base) ∧
    (∀ m base n, DeviceTree.size build.library m base = .ok (.ok n) ↔
      DeviceTree.Valid m base ∧ n = DeviceTree.claimedSize m base) ∧
    ∃ video, (build.framebuffer = false → video = []) ∧
      (DeviceTree.Truncated ready.memory.bytes BootPlan.deviceTreeBase →
        ∃ c, boot build sections b = .error (.panicked .truncatedTree) c ∧
          sent c.platform.uart = sent b.platform.uart ++ greeting ++ video ++
            wire ("ERROR - emulator::firmware: !!! Firmware Panic !!!\n  " ++
              build.report .truncatedTree ++ "\n") ∧
          c.platform.finish = (Bus.write 0 1 b.platform.finish).2 ∧ c.core = ready) ∧
      ∀ v, DeviceTree.size build.library ready.memory.bytes BootPlan.deviceTreeBase = .ok v →
        ∃ d, boot build sections b = .ok () d ∧
          sent d.platform.uart = sent b.platform.uart ++ greeting ++ video ++
            wire (treeLine build.library v) ∧
          Core.Launched Core.trapEntry Core.stackTop BootPlan.imageBase BootPlan.deviceTreeBase
            d.core := by
  intro ready
  refine ⟨fun m base => ?_, fun m base n => DeviceTree.size_eq_ok_iff hlibrary, ?_⟩
  · simp only [DeviceTree.size_eq_error_iff hlibrary, exists_and_left, exists_eq, and_true]
  obtain ⟨c, video, hc⟩ := exists_reachesTree build sections hlogger hwaits
  refine ⟨video, hc.video, fun ht => ?_, fun v hv => ?_⟩
  · obtain ⟨d, hboot, hpanicked⟩ := hc.panics hlibrary ht
    exact ⟨d, hboot, by rw [hpanicked.sent, hc.sent], by rw [hpanicked.finish, hc.finish],
      hpanicked.core.trans hc.core⟩
  · obtain ⟨d, hboot, hsent, hlaunched⟩ := hc.launches hv
    exact ⟨d, hboot, by rw [hsent, hc.sent], hlaunched⟩

/-- A board that finds a header in memory, well formed if the size that it claims is large enough. -/
def withHeader (size : Byte) : BootBoard FedUart Block Block SlowPort Block where
  core := { (Board.blank 0).core with
    memory := ⟨Memory.zero.poke BootPlan.deviceTreeBase [0xd0, 0x0d, 0xfe, 0xed, 0, 0, 0, size,
      0, 0, 0, 0x38, 0, 0, 0, 0x48, 0, 0, 0, 0x28], ⟨[], [], [], []⟩⟩ }
  platform := ⟨⟨.idle fun _ => 3, [], []⟩, ⟨[]⟩, ⟨[0]⟩, false⟩
  manager := ⟨fun _ => 0, [], 0, id⟩
  initiator := ⟨[]⟩

def linked : Build Word DeviceTree.Invalid := ⟨.fdt, false, Abort.message⟩

theorem truncated_withHeader :
    DeviceTree.Truncated (prepared ⟨0, 0, 0, 0, 0⟩ (withHeader 19).core).memory.bytes
      BootPlan.deviceTreeBase :=
  ⟨⟨by decide +kernel, by decide +kernel⟩, by decide +kernel⟩

/-- The shortest header that is judged, and one that is a byte shorter. -/
theorem boot_with_tree_short :
    (∃ c, boot linked ⟨0, 0, 0, 0, 0⟩ (withHeader 19) = .error (.panicked .truncatedTree) c ∧
      sent c.platform.uart = greeting ++ wire ("ERROR - emulator::firmware: " ++
        "!!! Firmware Panic !!!\n  called `Result::unwrap()` on an `Err` value: " ++
        "UnexpectedEndOfInput\n") ∧
      c.platform.finish.words = [1] ∧ c.core.mode = Mode.machine) ∧
    ∃ d, boot linked ⟨0, 0, 0, 0, 0⟩ (withHeader 20) = .ok () d ∧
      sent d.platform.uart = greeting ++
        wire "INFO - emulator::firmware: device tree at 0xc1000000 (20 bytes)\n" ∧
      d.core.mode = Mode.supervisor ∧ d.core.pc = 0xc0000000 ∧ d.core.reg .a1 = 0xc1000000 := by
  constructor
  · obtain ⟨-, -, video, hvideo, hpanics, -⟩ :=
      boot_with_tree (b := withHeader 19) linked DeviceTree.checksHeader_fdt ⟨0, 0, 0, 0, 0⟩ rfl rfl
    obtain ⟨c, hboot, hsent, hfinish, hcore⟩ := hpanics truncated_withHeader
    rw [hvideo rfl, List.append_nil] at hsent
    exact ⟨c, hboot, hsent, congrArg Block.words hfinish, congrArg Core.mode hcore⟩
  · obtain ⟨-, hjudged, video, hvideo, -, hlaunches⟩ :=
      boot_with_tree (b := withHeader 20) linked DeviceTree.checksHeader_fdt ⟨0, 0, 0, 0, 0⟩ rfl rfl
    have hvalid : DeviceTree.Valid (prepared ⟨0, 0, 0, 0, 0⟩ (withHeader 20).core).memory.bytes
        BootPlan.deviceTreeBase :=
      ⟨⟨by decide +kernel, by decide +kernel⟩, by decide +kernel, by decide +kernel,
        by decide +kernel⟩
    obtain ⟨d, hboot, hsent, hlaunched⟩ :=
      hlaunches _ ((hjudged _ _ 20).mpr ⟨hvalid, by decide +kernel⟩)
    have hline : treeLine .fdt (.ok 20) =
        "INFO - emulator::firmware: device tree at 0xc1000000 (20 bytes)\n" := by decide +kernel
    rw [hvideo rfl, List.append_nil] at hsent
    exact ⟨d, hboot, hsent.trans (congrArg (greeting ++ wire ·) hline), hlaunched.mode, hlaunched.pc,
      hlaunched.deviceTree⟩

/-- There is a header that is not judged, and with it the supervisor is never entered. -/
theorem truncated_tree_stops_boot :
    let m := (prepared ⟨0, 0, 0, 0, 0⟩ (withHeader 19).core).memory.bytes
    DeviceTree.spelled m BootPlan.deviceTreeBase = 0xd00dfeed ∧
      DeviceTree.claimedSize m BootPlan.deviceTreeBase = 19 ∧
      DeviceTree.size .fdt m BootPlan.deviceTreeBase = .error .truncatedTree ∧
      ∃ c, boot linked ⟨0, 0, 0, 0, 0⟩ (withHeader 19) = .error (.panicked .truncatedTree) c ∧
        c.core.mode = Mode.machine := by
  obtain ⟨c, video, hc⟩ := exists_reachesTree (b := withHeader 19) linked ⟨0, 0, 0, 0, 0⟩ rfl rfl
  have ht := truncated_withHeader
  obtain ⟨d, hboot, hpanicked⟩ := hc.panics DeviceTree.checksHeader_fdt ht
  have hcore : d.core = prepared ⟨0, 0, 0, 0, 0⟩ (withHeader 19).core :=
    hpanicked.core.trans hc.core
  exact ⟨ht.magic, by decide +kernel, DeviceTree.size_of_truncated DeviceTree.checksHeader_fdt ht, d,
    hboot, congrArg Core.mode hcore⟩

end TrapMonitor.Boot
