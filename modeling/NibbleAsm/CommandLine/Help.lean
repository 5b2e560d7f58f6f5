/-!
# Help texts

What the tool prints about itself. `build` has a short and a long text; the others have one each.
-/
namespace NibbleAsm.Help

/-- What the tool is for. -/
def about : String :=
  "Assembler for the Ya4ms 4-bit microcomputer"

def version : String :=
  "ya4ms-asm 0.1.0\n"

/-- Lines, each ended by a line feed. -/
def page (lines : List String) : String :=
  String.join (lines.map (fun line => line ++ "\n"))

def overview : String :=
  page
    [about,
      "",
      "Usage: ya4ms-asm <COMMAND>",
      "",
      "Commands:",
      "  build  Assemble source to machine code",
      "  check  Assemble without writing output",
      "  help   Print this message or the help of the given subcommand(s)",
      "",
      "Options:",
      "  -h, --help     Print help",
      "  -V, --version  Print version"]

def buildShort : String :=
  page
    ["Assemble source to machine code",
      "",
      "Usage: ya4ms-asm build [OPTIONS] <INPUT>",
      "",
      "Arguments:",
      "  <INPUT>  Input source file",
      "",
      "Options:",
      "  -o, --output <OUTPUT>  Output file (default: input stem + format extension)",
      "  -f, --format <FORMAT>  Output format [default: hex] [possible values: hex, json]",
      "  -v, --verbose          Print the listing and label table to stderr",
      "  -h, --help             Print help (see more with '--help')"]

def buildLong : String :=
  page
    ["Assemble source to machine code",
      "",
      "Usage: ya4ms-asm build [OPTIONS] <INPUT>",
      "",
      "Arguments:",
      "  <INPUT>",
      "          Input source file",
      "",
      "Options:",
      "  -o, --output <OUTPUT>",
      "          Output file (default: input stem + format extension)",
      "",
      "  -f, --format <FORMAT>",
      "          Output format",
      "",
      "          Possible values:",
      "          - hex:  One hex digit per code unit",
      "          - json: JSON object with `codes` and `labels`",
      "          ",
      "          [default: hex]",
      "",
      "  -v, --verbose",
      "          Print the listing and label table to stderr",
      "",
      "  -h, --help",
      "          Print help (see a summary with '-h')"]

def check : String :=
  page
    ["Assemble without writing output",
      "",
      "Usage: ya4ms-asm check <INPUT>",
      "",
      "Arguments:",
      "  <INPUT>  Input source file",
      "",
      "Options:",
      "  -h, --help  Print help"]

/-- The text on `help` itself. -/
def help : String :=
  page
    ["Print this message or the help of the given subcommand(s)",
      "",
      "Usage: ya4ms-asm help [COMMAND]...",
      "",
      "Arguments:",
      "  [COMMAND]...  Print help for the subcommand(s)"]

end NibbleAsm.Help
