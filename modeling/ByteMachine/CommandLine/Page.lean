import ByteMachine.CommandLine.Arguments

/-!
The texts that are shown instead of running a program.
-/

namespace ByteMachine.CommandLine

def versionLines : List String := ["mhfvm 0.3.0"]

def usageLine : String := "Usage: mhfvm [OPTIONS] <PROGRAM>"

def shortHelpLines : List String :=
  ["MHF virtual machine",
    "",
    usageLine,
    "",
    "Arguments:",
    "  <PROGRAM>  Program image to run",
    "",
    "Options:",
    "      --config <FILE>     JSON configuration file",
    "      --max-steps <N>     Stop after this many instructions (overrides the configuration)",
    "      --strict-registers  Fault on out-of-range register indices instead of skipping the "
      ++ "effect",
    "      --trace             Log every executed instruction to stderr",
    "      --disassemble       Print a listing of the loaded code starting at the entry point "
      ++ "instead of running it",
    "      --stats             Print execution statistics to stderr after the register dump",
    "  -h, --help              Print help (see more with '--help')",
    "  -V, --version           Print version"]

def longHelpLines : List String :=
  ["Load an MHF program image (.mhfb) and run it.",
    "",
    "Bytes stored to the output port appear on stdout; the final register state is printed when "
      ++ "the CPU halts or faults.",
    "",
    "Examples:",
    "  mhfvm hello.mhfb",
    "  mhfvm --max-steps 10000 --stats loop.mhfb",
    "  mhfvm --disassemble hello.mhfb",
    "",
    usageLine,
    "",
    "Arguments:",
    "  <PROGRAM>",
    "          Program image to run",
    "",
    "Options:",
    "      --config <FILE>",
    "          JSON configuration file",
    "",
    "      --max-steps <N>",
    "          Stop after this many instructions (overrides the configuration)",
    "",
    "      --strict-registers",
    "          Fault on out-of-range register indices instead of skipping the effect",
    "",
    "      --trace",
    "          Log every executed instruction to stderr",
    "",
    "      --disassemble",
    "          Print a listing of the loaded code starting at the entry point instead of running "
      ++ "it",
    "",
    "      --stats",
    "          Print execution statistics to stderr after the register dump",
    "",
    "  -h, --help",
    "          Print help (see a summary with '-h')",
    "",
    "  -V, --version",
    "          Print version"]

def Page.lines : Page → List String
  | shortHelp => shortHelpLines
  | longHelp => longHelpLines
  | version => versionLines

end ByteMachine.CommandLine
