import Dialogue.Json.Basic

/-!
# The DOCTOR

A script that comes with the library, after the one that made keyword conversation famous: it
talks like a therapist who turns every statement back into a question. The document is written
out as a value, ready to be compiled.
-/

namespace Dialogue.Doctor

/-- A text of the document. -/
def text (s : String) : Json := .string s

/-- A list of texts of the document. -/
def texts (l : List String) : Json := .array (l.map .string)

/-- The first greeting and the first farewell keep their places. -/
def options : Json :=
  .object [("fixed_initial", .number (.int 1)), ("fixed_final", .number (.int 1))]

/-- The replies that open a conversation. -/
def greetings : Json :=
  texts
    ["How do you do. Please tell me your problem.", "Please tell me what's been bothering you.",
     "Is something troubling you?"]

/-- The replies that close a conversation. -/
def farewells : Json :=
  texts
    ["Goodbye. It was nice talking to you.", "Goodbye. This was really a nice talk.",
     "Goodbye. I'm looking forward to our next session."]

/-- The parts of an input that end a conversation. -/
def quitParts : Json :=
  texts ["bye", "goodbye", "done", "exit", "quit"]

/-- The replies for inputs that nothing else answers. -/
def evasions : Json :=
  texts
    ["I'm not sure I understand you fully.", "Please go on.", "What does that suggest to you?",
     "Do you feel strongly about discussing such things?",
     "That is interesting. Please continue.", "Tell me more about that.",
     "Does talking about this bother you?"]

/-- The replies for empty inputs. -/
def prompts : Json :=
  texts ["You don't have to say anything, but I'm listening.", "Take your time."]

/-- What is substituted in an input. -/
def pre : Json :=
  .object
    [("dont", text "don't"), ("cant", text "can't"), ("wont", text "won't"),
     ("recollect", text "remember"), ("recall", text "remember"), ("dreamt", text "dreamed"),
     ("dreams", text "dream"), ("maybe", text "perhaps"), ("certainly", text "yes"),
     ("machine", text "computer"), ("machines", text "computer"),
     ("computers", text "computer"), ("were", text "was"), ("you're", text "you are"),
     ("i'm", text "i am"), ("same", text "alike"), ("identical", text "alike"),
     ("equivalent", text "alike")]

/-- What is substituted in captures, to speak from the other side. -/
def post : Json :=
  .object
    [("am", text "are"), ("your", text "my"), ("me", text "you"), ("myself", text "yourself"),
     ("yourself", text "myself"), ("i", text "you"), ("you", text "I"), ("my", text "your"),
     ("i'm", text "you are")]

/-- Words that decompositions take together. -/
def tags : Json :=
  .object
    [("belief", texts ["feel", "think", "believe", "wish"]),
     ("family", texts
        ["mother", "mom", "father", "dad", "sister", "brother", "wife", "children", "child"]),
     ("desire", texts ["want", "need"]),
     ("sad", texts ["sad", "unhappy", "depressed", "sick"]),
     ("happy", texts ["happy", "elated", "glad", "better"]),
     ("cannot", texts ["cannot", "can't"]),
     ("everyone", texts ["everyone", "everybody", "nobody", "noone"]),
     ("be", texts ["am", "is", "are", "was"])]

/-- The keywords with their rules. -/
def keywords : Json :=
  .object
    [("computer 50", texts
        ["Do computers worry you?", "Why do you mention computers?",
         "What do you think machines have to do with your problem?",
         "Don't you think computers can help people?", "What about machines worries you?",
         "What do you think about machines?"]),
     ("name 15", texts
        ["I am not interested in names.",
         "I've told you before, I don't care about names. Please continue."]),
     ("alike 10", texts
        ["In what way?", "What resemblance do you see?",
         "What does that similarity suggest to you?", "What other connections do you see?",
         "What do you suppose that resemblance means?",
         "What is the connection, do you suppose?", "Could there really be some connection?",
         "How?"]),
     ("like 10", .object
        [("* #be * like *", text "= alike")]),
     ("remember 5", .object
        [("* i remember *", texts
          ["Do you often think of $2?", "Does thinking of $2 bring anything else to mind?",
           "What else do you recollect?", "Why do you remember $2 just now?",
           "What in the present situation reminds you of $2?",
           "What is the connection between me and $2?"]),
         ("* do you remember *", texts
          ["Did you think I would forget $2?", "Why do you think I should recall $2 now?",
           "What about $2?", "= what", "You mentioned $2?"])]),
     ("dreamed 4", .object
        [("* i dreamed *", texts
          ["Really, $2?", "Have you ever fantasized $2 while you were awake?",
           "Have you ever dreamed $2 before?", "= dream"])]),
     ("if 3", .object
        [("* if *", texts
          ["Do you think it's likely that $2?", "Do you wish that $2?",
           "What do you know about $2?", "Really, if $2?"])]),
     ("dream 3", texts
        ["What does that dream suggest to you?", "Do you dream often?",
         "What persons appear in your dreams?",
         "Do you believe that dreams have something to do with your problem?"]),
     ("was 2", .object
        [("* was i *", texts
          ["What if you were $2?", "Do you think you were $2?", "Were you $2?",
           "What would it mean if you were $2?", "What does '$2' suggest to you?"]),
         ("* i was *", texts
          ["Were you really?", "Why do you tell me you were $2 now?",
           "Perhaps I already know you were $2."]),
         ("* was you *", texts
          ["Would you like to believe I was $2?", "What suggests that I was $2?",
           "What do you think?", "Perhaps I was $2.", "What if I had been $2?"])]),
     ("my 2", .object
        [("@ * my *", texts
          ["Lets discuss further why your $2.", "Earlier you said your $2.", "But your $2.",
           "Does that have anything to do with the fact that your $2?"]),
         ("* my * #family *", texts
          ["Tell me more about your family.", "Who else in your family $4?", "Your $3?",
           "What else comes to mind when you think of your $3?"]),
         ("* my *", texts
          ["Your $2?", "Why do you say your $2?",
           "Does that suggest anything else which belongs to you?",
           "Is it important to you that your $2?"])]),
     ("everyone 2", .object
        [("* #everyone *", texts
          ["Really, $2?", "Surely not $2.", "Can you think of anyone in particular?",
           "Who, for example?", "Are you thinking of a very special person?", "Who, may I ask?",
           "Someone special perhaps?", "You have a particular person in mind, don't you?",
           "Who do you think you're talking about?"])]),
     ("everybody 2", text "= everyone"),
     ("nobody 2", text "= everyone"),
     ("noone 2", text "= everyone"),
     ("always 1", texts
        ["Can you think of a specific example?", "When?", "What incident are you thinking of?",
         "Really, always?"]),
     ("sorry", texts
        ["Please don't apologise.", "Apologies are not necessary.",
         "I've told you that apologies are not required.",
         "It did not bother me. Please continue."]),
     ("apologise", text "= sorry"),
     ("hello", texts
        ["How do you do. Please state your problem.", "Hi. What seems to be your problem?"]),
     ("perhaps", texts
        ["You don't seem quite certain.", "Why the uncertain tone?",
         "Can't you be more positive?", "You aren't sure?", "Don't you know?",
         "How likely, would you estimate?"]),
     ("i", .object
        [("* i #desire *", texts
          ["What would it mean to you if you got $3?", "Why do you want $3?",
           "Suppose you got $3 soon.", "What if you never got $3?",
           "What would getting $3 mean to you?",
           "What does wanting $3 have to do with this discussion?"]),
         ("* i am * #sad *", texts
          ["I am sorry to hear that you are $3.",
           "Do you think coming here will help you not to be $3?",
           "I'm sure it's not pleasant to be $3.", "Can you explain what made you $3?"]),
         ("* i am * #happy *", texts
          ["How have I helped you to be $3?", "Has your treatment made you $3?",
           "What makes you $3 just now?", "Can you explain why you are suddenly $3?"]),
         ("* i was *", text "= was"),
         ("* i #belief i *", texts
          ["Do you really think so?", "But you are not sure you $3.",
           "Do you really doubt you $3?"]),
         ("* i am *", texts
          ["Is it because you are $2 that you came to me?", "How long have you been $2?",
           "Do you believe it is normal to be $2?", "Do you enjoy being $2?",
           "Do you know anyone else who is $2?"]),
         ("* i #cannot *", texts
          ["How do you know that you can't $3?", "Have you tried?", "Perhaps you could $3 now.",
           "Do you really want to be able to $3?", "What if you could $3?"]),
         ("* i don't *", texts
          ["Don't you really $2?", "Why don't you $2?", "Do you wish to be able to $2?",
           "Does that trouble you?"]),
         ("* i feel *", texts
          ["Tell me more about such feelings.", "Do you often feel $2?",
           "Do you enjoy feeling $2?", "Of what does feeling $2 remind you?"]),
         ("* i * you *", texts
          ["Perhaps in your fantasies we $2 each other.", "Do you wish to $2 me?",
           "You seem to need to $2 me.", "Do you $2 anyone else?"]),
         ("*", texts
          ["You say $1?", "Can you elaborate on that?",
           "Do you say $1 for some special reason?", "That's quite interesting."])]),
     ("you", .object
        [("* you remind me of *", text "= alike"),
         ("* you are *", texts
          ["What makes you think I am $2?", "Does it please you to believe I am $2?",
           "Do you sometimes wish you were $2?", "Perhaps you would like to be $2."]),
         ("* you * me *", texts
          ["Why do you think I $2 you?", "You like to think I $2 you, don't you?",
           "What makes you think I $2 you?", "Really, I $2 you?",
           "Do you wish to believe I $2 you?"]),
         ("* you *", texts
          ["We were discussing you, not me.", "Oh, I $2?",
           "You're not really talking about me, are you?", "What are your feelings now?"])]),
     ("am", .object
        [("* am i *", texts
          ["Do you believe you are $2?", "Would you want to be $2?",
           "Do you wish I would tell you you are $2?", "What would it mean if you were $2?"]),
         ("*", text "Why do you say 'am'?")]),
     ("are", .object
        [("* are you *", texts
          ["Why are you interested in whether I am $2 or not?",
           "Would you prefer if I weren't $2?", "Perhaps I am $2 in your fantasies.",
           "Do you sometimes think I am $2?"]),
         ("* are *", texts
          ["Did you think they might not be $2?", "Would you like it if they were not $2?",
           "What if they were not $2?", "Possibly they are $2."])]),
     ("your", .object
        [("* your *", texts
          ["Why are you concerned over my $2?", "What about your own $2?",
           "Are you worried about someone else's $2?", "Really, my $2?"])]),
     ("yes", texts
        ["You seem to be quite positive.", "You are sure.", "I see.", "I understand."]),
     ("no", texts
        ["Are you saying no just to be negative?", "You are being a bit negative.", "Why not?",
         "Why 'no'?"]),
     ("can", .object
        [("* can you *", texts
          ["You believe I can $2, don't you?", "You want me to be able to $2.",
           "Perhaps you would like to be able to $2 yourself."]),
         ("* can i *", texts
          ["Whether or not you can $2 depends on you more than me.",
           "Do you want to be able to $2?", "Perhaps you don't want to $2."])]),
     ("what", texts
        ["Why do you ask?", "Does that question interest you?",
         "What is it you really want to know?", "Are such questions much on your mind?",
         "What answer would please you most?", "What do you think?",
         "What comes to mind when you ask that?", "Have you asked such questions before?",
         "Have you asked anyone else?"]),
     ("who", text "= what"),
     ("when", text "= what"),
     ("where", text "= what"),
     ("how", text "= what"),
     ("because", texts
        ["Is that the real reason?", "Don't any other reasons come to mind?",
         "Does that reason seem to explain anything else?",
         "What other reasons might there be?"]),
     ("why", .object
        [("* why don't you *", texts
          ["Do you believe I don't $2?", "Perhaps I will $2 in good time.",
           "Should you $2 yourself?", "You want me to $2?", "= what"]),
         ("* why can't i *", texts
          ["Do you think you should be able to $2?", "Do you want to be able to $2?",
           "Do you believe this will help you to $2?", "Have you any idea why you can't $2?",
           "= what"]),
         ("*", text "= what")]),
     ("different", texts
        ["How is it different?", "What differences do you see?",
         "What does that difference suggest to you?", "What other distinctions do you see?",
         "What do you suppose that disparity means?",
         "Could there be some connection, do you suppose?", "How?"])]

/-- The document of the script. -/
def document : Json :=
  .object
    [("options", options),
     ("initial", greetings),
     ("final", farewells),
     ("quit", quitParts),
     ("none", evasions),
     ("empty", prompts),
     ("pre", pre),
     ("post", post),
     ("tags", tags),
     ("keywords", keywords)]

end Dialogue.Doctor
